import VistaBlox.IpoEscrowDeadline
import VistaBlox.PropertyFreeze
import VistaBlox.WalletRegistrations
import VistaBlox.PositionAmounts
import VistaBlox.OfferingPublication
import VistaBlox.LandedMoney
import VistaBlox.Distribution
import VistaBlox.OnrampOutcome
import VistaBlox.ReconfirmationRace
import VistaBlox.IntakeRevisions
import VistaBlox.IntakeRequests
import VistaBlox.IntakeCompletion
import VistaBlox.IntakePreview
import VistaBlox.IntakeApprovals
import VistaBlox.Idempotency
import VistaBlox.DpopReplay
import VistaBlox.DpopBindingOnce
import VistaBlox.EnrolmentAnswers
import VistaBlox.ReplacementBudget
import VistaBlox.RecoveredDevices
import VistaBlox.BusinessDays
import VistaBlox.KycRestart
import VistaBlox.KycRevocation
import VistaBlox.KycResidence
import VistaBlox.KycSessionStart
import VistaBlox.AuthPaths
import VistaBlox.KycHistory
import VistaBlox.AttestationChain
