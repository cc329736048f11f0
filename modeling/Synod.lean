import Synod.Main
import Synod.Proofs.Contract
import Synod.Proofs.FailedSaves
import Synod.Proofs.Errands
import Synod.Proofs.OneLeader
import Synod.Proofs.Persistence
import Synod.Proofs.Standing
import Synod.Proofs.StayingOut
import Synod.Simulation
import Synod.Proofs.Audience
import Synod.Proofs.Concord
import Synod.Proofs.Overtaking
import Synod.Proofs.Medley
import Synod.Proofs.Provenance
import Synod.Proofs.Generations
import Synod.Proofs.Forms
import Synod.Proofs.Crashes
import Synod.Proofs.Headway
import Synod.Proofs.Reporting
import Synod.Proofs.Sightings
import Synod.Proofs.Redelivery
import Synod.Proofs.Apart
import Synod.Proofs.EarlyVerdicts
import Synod.Proofs.Loading
import Synod.Proofs.Pauses
import Synod.Proofs.Budget
import Synod.Proofs.Hearing
import Synod.Proofs.Introductions
import Synod.Proofs.Omissions
import Synod.Proofs.Unspent
import Synod.Proofs.Adoption
