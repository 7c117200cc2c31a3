import AccessControl.LockActs
import AccessControl.AdminHold
import AccessControl.Relock
import AccessControl.AirlockExclusion
import AccessControl.AirlockRelease
import AccessControl.ReaderSession
import AccessControl.Authorisation
import AccessControl.StateTable
import AccessControl.Restore
import AccessControl.CrcTable
import AccessControl.OsdpPacket
import AccessControl.OsdpBounds
import AccessControl.ReaderIdesco
import AccessControl.StaleResponse
import AccessControl.OsdpDecode
import AccessControl.CrcShift
import AccessControl.OsdpCrc
import AccessControl.Epso
import AccessControl.EpsoRoundTrip
import AccessControl.ReaderRoger
import AccessControl.PinEntry
import AccessControl.PinAgreement
import AccessControl.UserDb
import AccessControl.UserRows
import AccessControl.DoorNames
import AccessControl.PinRule
import AccessControl.EventSend
import AccessControl.RemoteAtomic
import AccessControl.EventShell
import AccessControl.AirlockSources
import AccessControl.AirlockAdmin
import AccessControl.GpioInputs
import AccessControl.UserExpiry
import AccessControl.AuditName
import AccessControl.SqlTokens
import AccessControl.KeyAccess
import AccessControl.EpsoLoops
import AccessControl.RogerBounds
import AccessControl.RogerPolls
import AccessControl.RogerCards
import AccessControl.EventBounds
import AccessControl.DatagramBounds
import AccessControl.BlockedSignal
import AccessControl.KeyPacking
import AccessControl.EntryLimit
import AccessControl.Changes
import AccessControl.InputTurns
import AccessControl.InputEvents
import AccessControl.AlarmCadence
import AccessControl.FactorOrder
import AccessControl.MaskOrder
import AccessControl.NullTexts
import AccessControl.CrcBits
import AccessControl.OsdpComset
import AccessControl.EpsoCommands
import AccessControl.CredentialBuffers
import AccessControl.CString
import AccessControl.QueryText
import AccessControl.EpsoReads
import AccessControl.BlockStream
import AccessControl.Md5
import AccessControl.Md5Digest
import AccessControl.ConfigTable
import AccessControl.OsdpSignal
import AccessControl.WiredSite
import AccessControl.EnteredGrants
import AccessControl.OpenTime
import AccessControl.FactorExpiry
import AccessControl.Startup
import AccessControl.RogerSignal
import AccessControl.TcpSend
import AccessControl.StatusReply
import AccessControl.DoorGroup
import AccessControl.GrantedRows
import AccessControl.Independence
