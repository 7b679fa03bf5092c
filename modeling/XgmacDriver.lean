import XgmacDriver.Bench.ArenaSession
import XgmacDriver.Bench.LinkSession
import XgmacDriver.Bench.NotifierSession
import XgmacDriver.Bench.TickSession
import XgmacDriver.Proofs.CopyReceive
import XgmacDriver.Proofs.DrainForwarding
import XgmacDriver.Proofs.DrainRecord
import XgmacDriver.Proofs.LinkRecheck
import XgmacDriver.Proofs.LinkedDelivery
import XgmacDriver.Proofs.NotifierHistory
import XgmacDriver.Proofs.OutputEffects
import XgmacDriver.Proofs.PollCadence
import XgmacDriver.Proofs.PrefillBalance
import XgmacDriver.Proofs.ReceiveSessions
import XgmacDriver.Proofs.ReclaimRuns
import XgmacDriver.Proofs.RegionSizes
import XgmacDriver.Proofs.ServicePass
import XgmacDriver.Proofs.ServiceRuns
import XgmacDriver.Proofs.TickConversion
import XgmacDriver.Proofs.ZeroCopyTransmit
