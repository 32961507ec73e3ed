import Batpak.Proofs.BatchEquivalence
import Batpak.Proofs.CancelledRanges
import Batpak.Proofs.ChainEvidence
import Batpak.Proofs.ChangeDetection
import Batpak.Proofs.CheckpointRoundTrip
import Batpak.Proofs.CompactionRollback
import Batpak.Proofs.ControlStream
import Batpak.Proofs.CursorWorker
import Batpak.Proofs.EffectContainment
import Batpak.Proofs.FenceCompletion
import Batpak.Proofs.FrontierRuns
import Batpak.Proofs.FusedReplay
import Batpak.Proofs.HostilePrograms
import Batpak.Proofs.IdempWindow
import Batpak.Proofs.InternerIds
import Batpak.Proofs.ListenerSafety
import Batpak.Proofs.MmapRoundTrip
import Batpak.Proofs.MountOrder
import Batpak.Proofs.OutcomeLaws
import Batpak.Proofs.PagedQuery
import Batpak.Proofs.PartialWrites
import Batpak.Proofs.PayloadContent
import Batpak.Proofs.PayloadVersion
import Batpak.Proofs.PlannerContract
import Batpak.Proofs.PolicyBytes
import Batpak.Proofs.ReceiptAgreement
import Batpak.Proofs.RecoveryConvergence
import Batpak.Proofs.RegionIdentity
import Batpak.Proofs.RegisterCatalog
import Batpak.Proofs.RotationRetry
import Batpak.Proofs.ScheduleCompiler
import Batpak.Proofs.ScheduleSoundness
import Batpak.Proofs.SessionTermination
import Batpak.Proofs.SidxRoundTrip
import Batpak.Proofs.StatusView
import Batpak.Proofs.StreamCoverage
import Batpak.Proofs.UntrustedFooter
import Batpak.Proofs.ValidatorSoundness
import Batpak.Proofs.WriterRuns
