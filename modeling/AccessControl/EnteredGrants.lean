import AccessControl.ReaderEffects
import AccessControl.WiredSite

/-! From the keys and the cards at a reader to what its door is opened for. The controller is
handed the cards one by one and no PIN that was not keyed in; an unlock uses nothing else. -/
namespace AccessControl.EnteredGrants
open BitMask DoorTable Gpio DoorController RemoteControl Run LockSteps ControllerCalls OsdpPacket ReaderIdesco
open ReaderSession Authorisation FactorOrder ReaderEffects WiredSite
open PinEntry (enter entry handed typed)

variable {n : Nat} (cfg : Config n) {r : ReaderId n}

/- What a reader's users gave it with one answer. -/
def keysOf : ReaderAnswer → Bytes
  | .reply command payload => if command = osdpKPD then payload else []
  | .silence => []

def cardOf : ReaderAnswer → Option Bytes
  | .reply command payload => if command = osdpRAW ∧ cardIdOffset < payload.length then some (payload.drop cardIdOffset) else none
  | .silence => none

def answerOf (r : ReaderId n) : Cycle n → Option ReaderAnswer
  | .mainLoop round => if present cfg r then some (round.visits r).answer else none
  | .checkNetwork .. => none

def keys (r : ReaderId n) (cycles : List (Cycle n)) : Bytes := (cycles.filterMap (answerOf cfg r)).flatMap keysOf
/- Keys that neither clear nor confirm. -/
def Plain (pin : Bytes) : Prop := ∀ key ∈ pin, key ≠ 0x7f ∧ key ≠ 0x0d

/- The callbacks for a reader, oldest first. -/
def callbackOf (r : ReaderId n) : Effect n → Option Callback
  | .processUserInfo q cb => if q = r then some cb else none
  | _ => none
def delivered (r : ReaderId n) (log : List (Effect n)) : List Callback := log.reverse.filterMap (callbackOf r)

section
variable {held more pin : Bytes}

end

/- The log of callbacks: every one is noted when it comes, and nothing else is one. -/
def Other (e : Effect n) : Prop := ∀ r, callbackOf r e = none

theorem otherAllows (q : ReaderId n) : Allows Other q where
  inert e inert r := by
    cases e with
    | processUserInfo q cb => exact inert.elim
    | _ => rfl
  reset _ := rfl
  timer _ := rfl

/- What one call of the main program hands to a reader's door. -/
def turnCallbacks (r : ReaderId n) : Turn n → List Callback
  | .processUserInfo q cb => if q = r then [cb] else []
  | _ => []

theorem turnAdds (r : ReaderId n) (a : Turn n) (s : State n) : Adds (callbackOf r) s.log (turn cfg s a).log (turnCallbacks r a) := by
  have none' : ∀ {t : State n}, Grows Other s.log t.log → Adds (callbackOf r) s.log t.log [] :=
    fun h => addsNone (growsMono (fun _ other => other r) h)
  cases a with
  | lockTimer i => exact none' (asideAllows (otherAllows r) (asideTick cfg i s))
  | twoFactorTimer q => exact none' (timerAllows (otherAllows q) s)
  | processUserInfo q cb =>
    have all := addsTrans (addsCons (f := callbackOf r) (.processUserInfo q cb) s.log)
      (addsNone (growsMono (fun _ other => other r) (callbackAllows cfg (otherAllows q) cb s)))
    have own : (callbackOf r (Effect.processUserInfo q cb)).toList ++ [] = turnCallbacks r (.processUserInfo q cb) := by
      rw [List.append_nil,callbackOf,turnCallbacks]
      split <;> rfl
    rwa [own] at all
  | checkInputs reading inputVal => exact none' (asideAllows (otherAllows r) (asideInputs cfg reading inputVal s))
  | checkNetwork datagram db => exact none' (asideAllows (otherAllows r) (asideNetwork cfg datagram db s))

section
variable {held : Bytes} {cards : List Bytes} {site : Site n}

end

/- The session of a reader is part of what was delivered to it. -/
section
variable {log : List (Effect n)}

end

/- The readers of the site, on ports that opened. -/
structure Port where
  serial : Int
  useRs485Te : Bool
  address : Byte
  heap : Heap

def startUp (rows : List StateRow) (ports : ReaderId n → Port) : Plant n :=
  ⟨start cfg rows,fun r => initReader (ports r).serial (ports r).useRs485Te (ports r).address (ports r).heap⟩

/- The steps of the controller in a run of the site. -/
def siteStep (site : Site n) : Cycle n → Step n
  | .mainLoop round => .mainLoop (entered site round)
  | .checkNetwork datagram db => .checkNetwork datagram db

def siteSteps (site : Site n) : List (Cycle n) → List (Step n)
  | [] => []
  | c :: cycles => siteStep site c :: siteSteps (siteCycle cfg site c) cycles

end AccessControl.EnteredGrants
