import FormalSia.Types.Basic
import FormalSia.Mdm.Sectors
import FormalSia.Mdm.CacheInvariants
import FormalSia.Mdm.SwapSector
import FormalSia.Mdm.Program
import FormalSia.Host.Payment
import FormalSia.Host.PaymentProofs
import FormalSia.Crypto.MerkleTree
import FormalSia.Types.Block
import FormalSia.Host.ObligationLock
import FormalSia.Renter.Skyfile
import FormalSia.Renter.SkyfileProofs
import FormalSia.Renter.BaseSector
