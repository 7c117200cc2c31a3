import AccessControl.LockActs

/-! The main program cut into the calls it is made of, one after another; and of those the one
from which `process_user_info` calls `unlock_door`. -/
namespace AccessControl.ControllerCalls
open BitMask DoorTable Gpio DoorController RemoteControl Run LockSteps LockActs

variable {n : Nat} (cfg : Config n) {s t : State n} {r : ReaderId n}

/- The calls of the main program, one after another. -/
inductive Turn (n : Nat) where
  | lockTimer (door : Fin n)
  | twoFactorTimer (reader : ReaderId n)
  | processUserInfo (reader : ReaderId n) (callback : Callback)
  | checkInputs (reading : Reading) (inputVal : Fin n → Byte)
  | checkNetwork (datagram : Bytes) (db : Sqlite)

def turn (s : State n) : Turn n → State n
  | .lockTimer i => DoorController.lockTimer cfg i s
  | .twoFactorTimer q => DoorController.twoFactorTimer q s
  | .processUserInfo q cb => DoorController.processUserInfo cfg q cb s
  | .checkInputs reading inputVal => DoorController.checkInputs cfg reading inputVal s
  | .checkNetwork datagram db => RemoteControl.checkNetwork cfg datagram db s

def Turn.ticks (r : ReaderId n) : Turn n → Bool
  | .twoFactorTimer q => decide (q = r)
  | _ => false

def Turn.delivers (r : ReaderId n) : Turn n → Bool
  | .processUserInfo q _ => decide (q = r)
  | _ => false

def callbacks (pass : Pass n) (r : ReaderId n) : List (Turn n) :=
  if ((cfg r.door).reader r.side).present then (pass.readerData r).map (.processUserInfo r) else []

def doorCalls (pass : Pass n) (i : Fin n) : List (Turn n) :=
  [.lockTimer i,.twoFactorTimer ⟨i,.A⟩,.twoFactorTimer ⟨i,.B⟩] ++ callbacks cfg pass ⟨i,.A⟩ ++ callbacks cfg pass ⟨i,.B⟩

def calls : Step n → List (Turn n)
  | .mainLoop pass => (List.finRange n).flatMap (doorCalls cfg pass) ++ [.checkInputs pass.reading pass.inputVal]
  | .checkNetwork datagram db => [.checkNetwork datagram db]
  | .processUserInfo r cb => [.processUserInfo r cb]
  | .checkInputs reading inputVal => [.checkInputs reading inputVal]

theorem callbacksTurn (pass : Pass n) (r) (s : State n) : getReaderData cfg pass r s = (callbacks cfg pass r).foldl (turn cfg) s := by
  unfold getReaderData callbacks
  split
  · rw [List.foldl_map]
    rfl
  · rfl

theorem doorCallsTurn (pass : Pass n) (i) (s : State n) : doorTurn cfg pass s i = (doorCalls cfg pass i).foldl (turn cfg) s := by
  unfold doorTurn doorCalls
  rw [List.foldl_append,List.foldl_append,← callbacksTurn,← callbacksTurn]
  rfl

/- A step of the program is the sequence of its calls. -/
theorem stepCalls (a : Step n) (s : State n) : step cfg s a = (calls cfg a).foldl (turn cfg) s := by
  have doors : ∀ (pass : Pass n) (xs : List (Fin n)) (s : State n),
      xs.foldl (doorTurn cfg pass) s = (xs.flatMap (doorCalls cfg pass)).foldl (turn cfg) s := by
    intro pass xs
    induction xs with
    | nil => exact fun _ => rfl
    | cons i xs ih =>
      intro s
      rw [List.foldl_cons,List.flatMap_cons,List.foldl_append,ih,doorCallsTurn]
  cases a with
  | mainLoop pass =>
    rw [calls,List.foldl_append,← doors]
    rfl
  | _ => rfl

/- Each pass counts a reader's timer once. -/
theorem passTicks (pass : Pass n) (r : ReaderId n) : (calls cfg (.mainLoop pass)).countP (Turn.ticks r) = 1 := by
  have none' : ∀ q, (callbacks cfg pass q).countP (Turn.ticks r) = 0 := by
    intro q
    unfold callbacks
    split
    · rw [List.countP_map]
      exact List.countP_eq_zero.mpr fun _ _ => Bool.false_ne_true
    · rfl
  have door : ∀ i, (doorCalls cfg pass i).countP (Turn.ticks r) = if i = r.door then 1 else 0 := by
    intro i
    unfold doorCalls
    rw [List.countP_append,List.countP_append,none',none']
    obtain ⟨j,side⟩ := r
    by_cases own : i = j
    · subst own
      cases side <;> simp [Turn.ticks]
    · simp [Turn.ticks,own]
  have doors : ∀ xs : List (Fin n), (xs.flatMap (doorCalls cfg pass)).countP (Turn.ticks r) = xs.count r.door := by
    intro xs
    induction xs with
    | nil => rfl
    | cons i xs ih =>
      rw [List.flatMap_cons,List.countP_append,ih,door,List.count_cons,Nat.add_comm]
      simp only [beq_iff_eq]
  rw [calls,List.countP_append,doors,(List.nodup_finRange n).count,if_pos (List.mem_finRange r.door)]
  rfl

/- A stored credential whose mask is not zero; `earlier` is the log when the mask is known. -/
structure Opens (r : ReaderId n) (cb : Callback) (s : State n) (mask : Mask) (earlier : List (Effect n)) : Prop where
  present : ((cfg r.door).reader r.side).present = true
  granted : mask ≠ 0
  judged : ∃ t, storeCredential cfg r cb (s.emit (.processUserInfo r cb)) = .ok t ∧
    (authMask cfg cb.database r t).2 = mask ∧ (authMask cfg cb.database r t).1.log = earlier

section
variable {cfg} {i : Fin n} {mask result : Mask} {doors : Fin n → Door} {earlier : List (Effect n)}

theorem restedShut (rested : Rested s t) : ¬ Put s.log (.unlockDoor i mask result doors) earlier t.log := fun put => putGrows rested.log put

/- A call of `unlock_door` notes itself, and no other. -/
theorem unlockPut {j : Fin n} {own : Mask} (put : Put s.log (.unlockDoor i mask result doors) earlier (unlockDoor cfg j own s).1.log) :
    i = j ∧ mask = own ∧ earlier = s.log := by
  have called : Grows (fun _ => True) s.log (.unlockDoor j own (unlockMask cfg j own (s.doors j)) s.doors :: s.log) := growsCons trivial s.log
  rcases putSplit called (unlockAfter cfg j own s) put with here | later
  · obtain ⟨same,below⟩ := putCons here
    cases same
    exact ⟨rfl,rfl,below⟩
  · exact absurd (putGrows (unlockAfter cfg j own s) later) id

theorem authorisePut {database : Database} (put : Put s.log (.unlockDoor i mask result doors) earlier (authorise cfg database r s).log) :
    i = r.door ∧ mask ≠ 0 ∧ (authMask cfg database r s).2 = mask ∧ (authMask cfg database r s).1.log = earlier := by
  have asked := restedAuthMask cfg database r s
  unfold authorise at put
  generalize authMask cfg database r s = out at asked put ⊢
  obtain ⟨u,own⟩ := out
  dsimp only at asked put ⊢
  split at put
  · rename_i granted
    have reset := restedReset r (unlockDoor cfg r.door own u).1
    have unlock : Put u.log (.unlockDoor i mask result doors) earlier (unlockDoor cfg r.door own u).1.log := by
      have called := openGrows cfg r.door own u
      have within := (putSplit asked.log (growsTrans called (growsMono (fun _ _ => trivial) reset.log)) put).resolve_left (restedShut asked)
      exact (putSplit called reset.log within).resolve_right (restedShut reset)
    obtain ⟨rfl,rfl,rfl⟩ := unlockPut unlock
    exact ⟨rfl,granted,rfl,rfl⟩
  · split at put
    · exact absurd put (restedShut (asked.trans ((restedAuthError r u).trans (restedReset r _))))
    · exact absurd put (restedShut asked)

/- `process_user_info` opens its own door only, with the mask it has just got, and only where that is not zero. -/
theorem processPut {cb : Callback} (put : Put s.log (.unlockDoor i mask result doors) earlier (processUserInfo cfg r cb s).log) :
    i = r.door ∧ Opens cfg r cb s mask earlier := by
  have entered : Rested s (s.emit (.processUserInfo r cb)) := restedEmit (e := .processUserInfo r cb) trivial s
  unfold processUserInfo at put
  dsimp only at put
  split at put
  · rename_i present
    split at put
    · rename_i t failed
      exact absurd put (restedShut (entered.trans (restedStore cfg (.inl failed))))
    · rename_i t stored
      have before := entered.trans (restedStore cfg (.inr stored))
      have judged := authoriseWithin cfg (loggedCommands cfg).toCloses (r := r) (openGrows cfg r.door) cb.database t
      obtain ⟨own,granted,answer,log⟩ := authorisePut ((putSplit before.log judged put).resolve_left (restedShut before))
      exact ⟨own,present,granted,t,stored,answer,log⟩
  · exact absurd put (restedShut (entered.trans (restedData r _)))

end

/- What the call is to open with, zero where it does not come to that. -/
def verdict (r : ReaderId n) (cb : Callback) (s : State n) : Mask :=
  if ((cfg r.door).reader r.side).present then
    match storeCredential cfg r cb (s.emit (.processUserInfo r cb)) with
    | .ok t => (authMask cfg cb.database r t).2
    | .error _ => 0
  else 0

theorem verdictOpens {cb : Callback} (granted : verdict cfg r cb s ≠ 0) : ∃ earlier, Opens cfg r cb s (verdict cfg r cb s) earlier := by
  unfold verdict at granted ⊢
  by_cases present : ((cfg r.door).reader r.side).present = true
  · rw [if_pos present] at granted ⊢
    cases stored : storeCredential cfg r cb (s.emit (.processUserInfo r cb)) with
    | error t => rw [stored] at granted; exact absurd rfl granted
    | ok t =>
      rw [stored] at granted
      exact ⟨_,present,granted,t,stored,rfl,rfl⟩
  · rw [if_neg present] at granted
    exact absurd rfl granted

/- And a mask that is not zero is what the door is opened with. -/
theorem opensPut {cb : Callback} {mask : Mask} {earlier : List (Effect n)} (opens : Opens cfg r cb s mask earlier) :
    ∃ result doors, Put s.log (.unlockDoor r.door mask result doors) earlier (processUserInfo cfg r cb s).log := by
  obtain ⟨present,granted,t,stored,rfl,rfl⟩ := opens
  have entered : Rested s (s.emit (.processUserInfo r cb)) := restedEmit (e := .processUserInfo r cb) trivial s
  have before := (entered.trans (restedStore cfg (.inr stored))).trans (restedAuthMask cfg cb.database r t)
  have called := unlockAfter cfg r.door (authMask cfg cb.database r t).2 (authMask cfg cb.database r t).1
  have reset := restedReset r (unlockDoor cfg r.door (authMask cfg cb.database r t).2 (authMask cfg cb.database r t).1).1
  have whole : processUserInfo cfg r cb s =
      resetDoorAuth r (unlockDoor cfg r.door (authMask cfg cb.database r t).2 (authMask cfg cb.database r t).1).1 := by
    unfold processUserInfo
    dsimp only
    rw [if_pos present,stored]
    exact if_pos granted
  rw [whole]
  exact ⟨_,_,putOlder before.log (putNewer (putNewer (putTop _ _) called) reset.log)⟩

/- In a run over the steps a call of `process_user_info` for `r` calls `unlock_door` of door `i`; `earlier` is the log then. -/
def Unlocks (s : State n) (steps : List (Step n)) (r : ReaderId n) (cb : Callback) (i : Fin n) (mask : Mask)
    (earlier : List (Effect n)) : Prop :=
  ∃ before after result doors, steps.flatMap (calls cfg) = before ++ .processUserInfo r cb :: after ∧
    Put (before.foldl (turn cfg) s).log (.unlockDoor i mask result doors) earlier
      (processUserInfo cfg r cb (before.foldl (turn cfg) s)).log

theorem stepsTurns (steps : List (Step n)) (s : State n) : steps.foldl (step cfg) s = (steps.flatMap (calls cfg)).foldl (turn cfg) s := by
  induction steps generalizing s with
  | nil => rfl
  | cons a steps ih => rw [List.foldl_cons,ih,stepCalls,List.flatMap_cons,List.foldl_append]

theorem turnLogged (a : Turn n) (s : State n) : Logged s (turn cfg s a) := by
  have closes := (loggedCommands cfg).toCloses
  cases a with
  | lockTimer i => exact loggedTick cfg i s
  | twoFactorTimer q => exact closes.rested (restedTwoFactor q s)
  | processUserInfo q cb => exact processUserInfoWithin cfg closes (r := q) (openGrows cfg q.door) cb s
  | checkInputs reading inputVal =>
    exact checkInputsWithin cfg closes (fun i s => openGrows cfg i 1 s) (fun i input s => growsMono (fun _ _ => trivial) (senseLog ..))
      (fun i input s => growsMono (fun _ _ => trivial) (hushedAlarm cfg i input s).log) reading inputVal s
  | checkNetwork datagram db => exact networkWithin (loggedCommands cfg) datagram db s

theorem turnsLogged (turns : List (Turn n)) (s : State n) : Logged s (turns.foldl (turn cfg) s) :=
  foldlWithin (loggedCommands cfg).toCloses (fun s a => turnLogged cfg a s) turns s

section
variable {cfg} {steps : List (Step n)} {cb : Callback} {i : Fin n} {mask : Mask} {earlier : List (Effect n)}

/- It is a call for the reader's own door, by a callback of the run. -/
theorem unlocksOpens (unlocks : Unlocks cfg s steps r cb i mask earlier) : i = r.door ∧ .processUserInfo r cb ∈ steps.flatMap (calls cfg) ∧
    ∃ before after, steps.flatMap (calls cfg) = before ++ .processUserInfo r cb :: after ∧
      Opens cfg r cb (before.foldl (turn cfg) s) mask earlier := by
  obtain ⟨before,after,result,doors,cut,put⟩ := unlocks
  obtain ⟨own,opens⟩ := processPut put
  exact ⟨own,cut ▸ List.mem_append_right before List.mem_cons_self,before,after,cut,opens⟩

theorem opensUnlocks (before after : List (Turn n)) (cut : steps.flatMap (calls cfg) = before ++ .processUserInfo r cb :: after)
    (opens : Opens cfg r cb (before.foldl (turn cfg) s) mask earlier) : Unlocks cfg s steps r cb r.door mask earlier := by
  obtain ⟨result,doors,put⟩ := opensPut cfg opens
  exact ⟨before,after,result,doors,cut,put⟩

end
end AccessControl.ControllerCalls
