import AccessControl.EnteredGrants
import AccessControl.KeyAccess
import AccessControl.PinRule

/-! From what users enter at a reader to the rows of the tables that let them in: each reader puts
the questions of its own mode, and an unlock stands on rows for what was entered at that reader. -/
namespace AccessControl.GrantedRows
open BitMask DoorTable Gpio DoorController RemoteControl Run ControllerCalls ReaderSession Authorisation WiredSite EnteredGrants
open UserDb UserRows DoorNames KeyAccess SqlTokens
open OsdpPacket (osdpRAW clear)
open OsdpFrame (frame)

variable {n : Nat} (cfg : Config n) {s t : State n} {r : ReaderId n}

section
variable {cfg}

end

/- What SQLite answers from the tables: rows of the statement for a mask, and none for what is no statement. -/
def Kept (valid : Text → Prop) (md5 : Md5) (tables : Tables) (time : Int) (database : Database) : Prop :=
  ∃ db, database = userDb md5 db time ∧ Documented valid tables db ∧ Prepares valid db

section
variable {valid : Text → Prop} {md5 : Md5} {tables : Tables} {db : Connection} {time : Int} {keys : Bytes} {cards : List Bytes}
variable {own mode : Byte} {pin card doorname : Bytes} {u : User} {ud : UserDoor} {d : DoorRow} {k : Nat}

end

/- One pass in which the guest of the tables shows the card 00 behind its four bytes of format, at a
reader in the memory of an older one. -/
def guestFrame : Bytes := frame 0 osdpRAW [0,0,0,0,0]
def guestVisit : Visit where
  line := ⟨some ⟨guestFrame,by decide⟩,none⟩
  locals := ⟨⟨0,clear⟩,⟨0,clear⟩,⟨0,0,clear⟩⟩
  database := userDb zeroMd5 (gated onceOnly (PinRule.guest 1)) 0
  answer := .reply osdpRAW [0,0,0,0,0]
  heard := .known (.raw _) (by decide) (by decide) rfl

def guestRound : Round 2 := ⟨fun _ => guestVisit,none,fun _ => 0⟩
def guestPort : Port := ⟨0,false,0,⟨(StaleResponse.entering 0).pinBuf,0,(StaleResponse.entering 0).whole⟩⟩

def guestPlant : Plant 2 := startUp PinRule.guestSite [] fun _ => guestPort
def guestSteps : List (Step 2) := siteSteps PinRule.guestSite (plain guestPlant) [.mainLoop guestRound]
def guestTold : Callback := ⟨[0],.dataIsCard,.dataOk,guestVisit.database⟩

/- The reader's callback is the fourth call of the pass, behind the three timers of its door. -/
theorem guestUnlocks : ∃ earlier, Unlocks PinRule.guestSite (start PinRule.guestSite []) guestSteps PinRule.guestReader guestTold doorA 1 earlier := by
  have granted : verdict PinRule.guestSite PinRule.guestReader guestTold
      (((guestSteps.flatMap (calls PinRule.guestSite)).take 3).foldl (turn PinRule.guestSite) (start PinRule.guestSite [])) = 1 := by decide +kernel
  obtain ⟨earlier,opens⟩ := verdictOpens PinRule.guestSite (by rw [granted]; decide)
  rw [granted] at opens
  exact ⟨earlier,opensUnlocks _ ((guestSteps.flatMap (calls PinRule.guestSite)).drop 4) rfl opens⟩

end AccessControl.GrantedRows
