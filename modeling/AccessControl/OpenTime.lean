import AccessControl.Relock

/-! How long a door stays open. The step that opens a door starts its whole countdown; until it
is opened again every pass takes one off, and its outputs change in the pass that takes the last. -/
namespace AccessControl.OpenTime
open BitMask DoorTable Gpio DoorController RemoteControl Run LockSteps LockActs Relock

variable {n : Nat} (cfg : Config n) {s t : State n} {d : Fin n} {k : Nat}

/- The last opening of a door is `since`; so much of its countdown is left, and an output of it
is as it is. -/
structure Waiting (d : Fin n) (k since : Nat) (adm : Mask) (left : Int) (operation : Option DoorOperations) (s : State n) : Prop where
  openings : openings d s.log = since
  timer : (s.doors d).doorLockTimer = left
  adm : (s.doors d).admDisableMask = adm
  output : driven s.log k = operation

/- The same, or the door was opened since. -/
def Waits (d : Fin n) (k since : Nat) (adm : Mask) (left : Int) (operation : Option DoorOperations) (s : State n) : Prop :=
  since < openings d s.log ∨ Waiting d k since adm left operation s

/- A door that was opened since has its whole countdown before it. -/
def Opened (d : Fin n) (since : Nat) (s : State n) : Prop := since < openings d s.log → (s.doors d).doorLockTimer = doorOpenTime

theorem tickOther {i : Fin n} (ne : i ≠ d) (s : State n) :
    openings d (lockTimer cfg i s).log = openings d s.log ∧ ((lockTimer cfg i s).doors d).doorLockTimer = (s.doors d).doorLockTimer := by
  have kept := keptTick cfg ne s
  refine ⟨?_,kept.timer⟩
  rcases lockTimerCases cfg i s with ⟨_,same⟩ | ⟨_,_,same⟩ | ⟨_,_,same⟩ <;> rw [same]
  · rfl
  · exact lockOpenings cfg i _ (ticked i s)

/- An act either opens the door and starts the countdown, or leaves both alone; only the tick
counts it down. -/
theorem unlockOpens (i : Fin n) (mask : Mask) (s : State n) :
    openings d s.log < openings d (unlockDoor cfg i mask s).1.log ∧ ((unlockDoor cfg i mask s).1.doors d).doorLockTimer = doorOpenTime ∨
    openings d (unlockDoor cfg i mask s).1.log = openings d s.log ∧
      ((unlockDoor cfg i mask s).1.doors d).doorLockTimer = (s.doors d).doorLockTimer := by
  rw [unlockOpenings,unlockTimer]
  by_cases opened : i = d ∧ unlockMask cfg i mask (s.doors i) ≠ 0
  · rw [if_pos opened,if_neg opened.2,if_pos opened.1.symm]
    exact .inl ⟨Nat.lt_succ_self _,rfl⟩
  · rw [if_neg opened]
    refine .inr ⟨Nat.add_zero _,?_⟩
    split
    · rfl
    · rename_i drove
      exact if_neg fun own => opened ⟨own.symm,drove⟩

theorem actOpens {a : Act n} (other : a ≠ .tick d) (taken : Takes cfg a s t) :
    openings d s.log < openings d t.log ∧ (t.doors d).doorLockTimer = doorOpenTime ∨
    openings d t.log = openings d s.log ∧ (t.doors d).doorLockTimer = (s.doors d).doorLockTimer := by
  have updated : ∀ (i : Fin n) (f : Door → Door) (u : State n), (∀ door, (f door).doorLockTimer = door.doorLockTimer) →
      openings d (u.update i f).log = openings d u.log ∧ ((u.update i f).doors d).doorLockTimer = (u.doors d).doorLockTimer := by
    intro i f u same
    refine ⟨rfl,?_⟩
    rw [updateDoor]
    split
    · exact same _
    · rfl
  cases a with
  | still => exact .inr ⟨quietOpenings taken.log,congrArg LockState.doorLockTimer (taken.lock d)⟩
  | tick i =>
    cases taken
    exact .inr (tickOther cfg (fun e => other (by rw [e])) s)
  | unlock i mask =>
    cases taken
    exact unlockOpens cfg i mask s
  | lock i mask =>
    cases taken
    exact .inr ⟨lockOpenings cfg i mask s,lockKeepsTimer cfg i mask s d⟩
  | sense i input =>
    cases taken
    exact .inr ⟨quietOpenings (senseLog ..),by rw [senseDoors]⟩
  | setUnlock i arg2 =>
    cases taken
    unfold setUnlock
    obtain ⟨first,timed⟩ := updated i (fun door => {door with admDisableMask := 0, airLockMask := 0}) s fun _ => rfl
    obtain ⟨last,timed'⟩ := updated i (fun door => {door with admDisableMask := arg2})
      (unlockDoor cfg i arg2 (s.update i fun door => {door with admDisableMask := 0, airLockMask := 0})).1 fun _ => rfl
    rw [last,timed',← first,← timed]
    exact unlockOpens cfg i arg2 _
  | setLock i arg2 =>
    cases taken
    unfold setLock
    obtain ⟨first,timed⟩ := updated i (fun door => {door with admDisableMask := 0, airLockMask := 0}) s fun _ => rfl
    obtain ⟨last,timed'⟩ := updated i (fun door => {door with admDisableMask := arg2})
      (lockDoor cfg i arg2 (s.update i fun door => {door with admDisableMask := 0, airLockMask := 0})).1 fun _ => rfl
    rw [last,timed',← first,← timed]
    exact .inr ⟨lockOpenings cfg i arg2 _,lockKeepsTimer cfg i arg2 _ d⟩
  | unset i =>
    cases taken
    exact .inr (updated i _ s fun _ => rfl)
  | block i arg2 =>
    cases taken
    exact .inr (updated i _ s fun _ => rfl)
  | unblock i arg2 =>
    cases taken
    exact .inr (updated i _ s fun _ => rfl)

theorem actOpened {a : Act n} (other : a ≠ .tick d) (taken : Takes cfg a s t) {since : Nat} (h : Opened d since s) : Opened d since t := by
  intro later
  rcases actOpens cfg other taken with ⟨_,timer⟩ | ⟨same,timer⟩
  · exact timer
  · rw [timer]
    exact h (by rwa [same] at later)

/- The turns of a pass, door by door: what the own countdown establishes, and neither the own
readers nor another door breaks. -/
theorem doorTurnsApart (d : Fin n) (before after : State n → Prop) (tick : ∀ s, before s → after (lockTimer cfg d s))
    (own : ∀ a s t, OfReader d a → Takes cfg a s t → after s → after t)
    (others : ∀ i, i ≠ d → ∀ a s t, OfReader i a ∨ a = .tick i → Takes cfg a s t → (before s → before t) ∧ (after s → after t))
    (pass : Pass n) {s : State n} (start : before s) : after (doorTurns cfg pass s) := by
  have all := foldlEach (fun i s => i = d → before s) (fun i s => i = d → after s) (f := doorTurn cfg pass) (List.nodup_finRange n)
    ?_ ?_ (s := s) (fun _ _ _ => start)
  · exact all d (List.mem_finRange d) rfl
  · rintro s i h rfl
    exact runInvariant after (fun u a v of h taken => own a u v of taken h) (doorTurnPath cfg pass i s) (tick s (h rfl))
  · intro s i j ne
    have turn : ∀ inv : State n → Prop, (∀ a u v, OfReader i a ∨ a = .tick i → Takes cfg a u v → inv u → inv v) →
        inv s → inv (doorTurn cfg pass s i) := fun inv each h =>
      runInvariant inv (fun u a v of h taken => each a u v (.inl of) taken h) (doorTurnPath cfg pass i s) (each _ s _ (.inr rfl) rfl h)
    refine ⟨fun h own' => ?_,fun h own' => ?_⟩
    · have apart : i ≠ d := fun e => ne (e.trans own'.symm)
      exact turn before (fun a u v of taken => (others i apart a u v of taken).1) (h own')
    · have apart : i ≠ d := fun e => ne (e.trans own'.symm)
      exact turn after (fun a u v of taken => (others i apart a u v of taken).2) (h own')

theorem readerTicks {i : Fin n} {a : Act n} (of : OfReader i a) : a ≠ .tick d := by
  obtain rfl | ⟨mask,rfl⟩ := of <;> exact nofun

theorem stillOpenings {a : Act n} {i : Fin n} (ne : i ≠ d) (of : OfReader i a ∨ a = .tick i) (taken : Takes cfg a s t) :
    openings d t.log = openings d s.log := by
  obtain (rfl | ⟨mask,rfl⟩) | rfl := of
  · exact quietOpenings taken.log
  · cases taken
    rw [unlockOpenings,if_neg fun h => ne h.1,Nat.add_zero]
  · cases taken
    exact (tickOther cfg ne s).1

theorem inputsPath (d : Fin n) (reading inputVal) (s : State n) :
    Path cfg (fun _ a => OfPass a ∧ a ≠ .tick d) s (checkInputs cfg reading inputVal s) :=
  checkInputsWithin cfg (pathCloses cfg fun _ => ⟨trivial,nofun⟩) (fun _ _ => pathUnlock ⟨trivial,nofun⟩) (fun _ _ _ => pathSense ⟨trivial,nofun⟩)
    (fun i input s => pathStill (hushedAlarm cfg i input s).still ⟨trivial,nofun⟩) reading inputVal s

theorem datagramTicks (datagram : Bytes) (db : Sqlite) : datagramAct cfg datagram db ≠ .tick d := by
  have ordered : ∀ (i : Fin n) cmd arg1 argX, commandAct db i cmd arg1 argX ≠ .tick d := by
    intro i cmd arg1 argX
    unfold commandAct
    dsimp only
    repeat' split
    all_goals exact nofun
  unfold datagramAct
  dsimp only
  split
  · split
    · exact ordered _ _ _ _
    · exact nofun
  · exact nofun

theorem passOpened (pass : Pass n) (s : State n) : Opened d (openings d s.log) (mainLoop cfg pass s) := by
  have turns : Opened d (openings d s.log) (doorTurns cfg pass s) := by
    refine doorTurnsApart cfg d (fun u => openings d u.log = openings d s.log) (Opened d (openings d s.log)) ?_ ?_ ?_ pass rfl
    · intro u same later
      have none' : openings d (lockTimer cfg d u).log = openings d u.log := by
        rcases lockTimerCases cfg d u with ⟨_,e⟩ | ⟨_,_,e⟩ | ⟨_,_,e⟩ <;> rw [e]
        · rfl
        · exact lockOpenings cfg d _ (ticked d u)
      rw [none',same] at later
      exact absurd later (lt_irrefl _)
    · exact fun a u v of taken h => actOpened cfg (readerTicks of) taken h
    · intro i ne a u v of taken
      have other : a ≠ .tick d := by
        rcases of with reader | rfl
        · exact readerTicks reader
        · exact fun e => ne (Act.tick.inj e)
      exact ⟨fun same => (stillOpenings cfg ne of taken).trans same,actOpened cfg other taken⟩
  exact runInvariant (Opened d _) (fun u a v of h taken => actOpened cfg of.2 taken h) (inputsPath cfg d _ _ _) turns

/- Whatever step opens a door, its countdown is whole after it. -/
theorem stepOpened (a : Step n) (s : State n) : Opened d (openings d s.log) (step cfg s a) := by
  have start' : Opened d (openings d s.log) s := fun later => absurd later (lt_irrefl _)
  cases a with
  | mainLoop pass => exact passOpened cfg pass s
  | processUserInfo r cb =>
    exact runInvariant (Opened d _) (fun u a v of h taken => actOpened cfg (readerTicks of) taken h) (processUserInfoPath cfg r cb s) start'
  | checkInputs reading inputVal =>
    exact runInvariant (Opened d _) (fun u a v of h taken => actOpened cfg of.2 taken h) (inputsPath cfg d _ _ _) start'
  | checkNetwork datagram db =>
    by_cases nonempty : datagram = []
    · simpa [step,checkNetwork,nonempty] using start'
    · obtain ⟨v,w,before,taken,after⟩ := checkNetworkActing cfg nonempty db s
      have counts : ∀ {u v : State n}, Still u v → Opened d (openings d s.log) u → Opened d (openings d s.log) v := by
        intro u v still
        refine actOpened cfg (a := .still) ?_ still
        intro same
        cases same
      exact counts after (actOpened cfg (datagramTicks cfg datagram db) taken (counts before start'))

section
variable (apart : ∀ i, i ≠ d → outputs cfg i &&& outputs cfg d = 0) (inside : (outputs cfg d).getLsbD k = true)
variable {since : Nat} {adm : Mask} {left : Int} {operation : Option DoorOperations}
include apart inside

theorem lockOther {i : Fin n} (ne : i ≠ d) (mask : Mask) (s : State n) : driven (lockDoor cfg i mask s).1.log k = driven s.log k := by
  rw [lockDriven,lockApart cfg (apart i ne) inside,if_neg Bool.false_ne_true]

/- An act of a pass that does not open the door leaves its outputs alone. -/
theorem actHolds {a : Act n} (of : OfPass a) (other : a ≠ .tick d) (taken : Takes cfg a s t)
    (quiet : openings d t.log = openings d s.log) :
    (t.doors d).admDisableMask = (s.doors d).admDisableMask ∧ driven t.log k = driven s.log k := by
  cases a with
  | still => exact ⟨congrArg LockState.admDisableMask (taken.lock d),taken.driven k⟩
  | tick i =>
    cases taken
    have ne : i ≠ d := fun e => other (by rw [e])
    refine ⟨(keptTick cfg ne s).adm,?_⟩
    rcases lockTimerCases cfg i s with ⟨_,same⟩ | ⟨_,_,same⟩ | ⟨_,_,same⟩ <;> rw [same]
    · rfl
    · exact lockOther cfg apart inside ne _ (ticked i s)
  | unlock i mask =>
    cases taken
    refine ⟨unlockAdm cfg i mask s d,?_⟩
    rw [unlockDriven]
    by_cases own : i = d
    · subst own
      have none' : unlockMask cfg i mask (s.doors i) = 0 := by
        by_contra drove
        rw [unlockOpenings,if_pos ⟨rfl,drove⟩] at quiet
        omega
      rw [none']
      simp
    · rw [unlockApart cfg (apart i own) inside,if_neg Bool.false_ne_true]
  | sense i input =>
    cases taken
    exact ⟨by rw [senseDoors],drivenQuiet (senseLog ..) k⟩
  | _ => exact of.elim

theorem actWaits {a : Act n} (of : OfPass a) (other : a ≠ .tick d) (taken : Takes cfg a s t)
    (h : Waits d k since adm left operation s) : Waits d k since adm left operation t := by
  rcases actOpens cfg other taken with ⟨more,_⟩ | ⟨same,timer⟩
  · rcases h with opened | waiting
    · exact .inl (lt_trans opened more)
    · exact .inl (by rw [← waiting.openings]; exact more)
  · rcases h with opened | waiting
    · exact .inl (by rw [same]; exact opened)
    · obtain ⟨kept,output⟩ := actHolds cfg apart inside of other taken same
      exact .inr ⟨by rw [same,waiting.openings],by rw [timer,waiting.timer],by rw [kept,waiting.adm],by rw [output,waiting.output]⟩

omit apart in
/- What a pass makes of the countdown and of an output that nobody holds. -/
theorem tickWaits (free : adminBit cfg d adm k = false) (low : 0 ≤ left) (h : Waits d k since adm left operation s) :
    Waits d k since adm (max (left - 1) 0) (if left = 1 then some .doLock else operation) (lockTimer cfg d s) := by
  have timer : ((ticked d s).doors d).doorLockTimer = (s.doors d).doorLockTimer - 1 := by simp [ticked]
  have kept : ((ticked d s).doors d).admDisableMask = (s.doors d).admDisableMask := by simp [ticked]
  have count : openings d (lockTimer cfg d s).log = openings d s.log := by
    rcases lockTimerCases cfg d s with ⟨_,e⟩ | ⟨_,_,e⟩ | ⟨_,_,e⟩ <;> rw [e]
    · rfl
    · exact lockOpenings cfg d _ (ticked d s)
  rcases h with opened | ⟨opens,running,held,output⟩
  · exact .inl (by rw [count]; exact opened)
  · right
    refine ⟨by rw [count,opens],?_,?_,?_⟩
    all_goals rcases lockTimerCases cfg d s with ⟨zero,e⟩ | ⟨some',more,e⟩ | ⟨some',last,e⟩ <;> rw [e]
    · omega
    · rw [timer]
      omega
    · rw [lockKeepsTimer,timer]
      omega
    · exact held
    · rw [kept,held]
    · rw [lockAdm,kept,held]
    · rw [if_neg (by omega),output]
    · rw [if_neg (by omega)]
      exact output
    · obtain ⟨low',high',full⟩ := (outputsBit ..).mp inside
      have bit : (lockMask cfg d (cfg d).maskFull ((ticked d s).doors d)).getLsbD k = true := by
        rw [lockMaskBit,kept,held]
        exact ⟨low',high',full,full,free⟩
      rw [if_pos (by omega),lockDriven,if_pos bit]

theorem passWaits (free : adminBit cfg d adm k = false) (low : 0 ≤ left) (pass : Pass n) (h : Waits d k since adm left operation s) :
    Waits d k since adm (max (left - 1) 0) (if left = 1 then some .doLock else operation) (mainLoop cfg pass s) := by
  have turns := doorTurnsOnce cfg d (Waits d k since adm left operation)
    (Waits d k since adm (max (left - 1) 0) (if left = 1 then some .doLock else operation))
    (fun _ => tickWaits cfg inside free low) ?_ pass h
  · exact runInvariant (Waits d k since adm (max (left - 1) 0) (if left = 1 then some .doLock else operation))
      (fun u a v of h taken => actWaits cfg apart inside of.1 of.2 taken h) (inputsPath cfg d _ _ _) turns
  · intro a u v of taken
    have allowed : OfPass a ∧ a ≠ .tick d := by
      obtain rfl | ⟨i,ne,rfl⟩ | ⟨i,mask,rfl⟩ := of
      · exact ⟨trivial,nofun⟩
      · exact ⟨trivial,fun e => ne (Act.tick.inj e)⟩
      · exact ⟨trivial,nofun⟩
    exact ⟨actWaits cfg apart inside allowed.1 allowed.2 taken,actWaits cfg apart inside allowed.1 allowed.2 taken⟩

theorem passesWait (free : adminBit cfg d adm k = false) (low : 0 ≤ left) (passes : List (Pass n)) (h : Waits d k since adm left operation s) :
    Waits d k since adm (max (left - passes.length) 0) (if 0 < left ∧ left ≤ passes.length then some .doLock else operation)
      (passes.foldl (fun s pass => mainLoop cfg pass s) s) := by
  induction passes generalizing s left operation with
  | nil =>
    have none' : ¬ (0 < left ∧ left ≤ ([] : List (Pass n)).length) := by
      rw [List.length_nil]
      omega
    rw [if_neg none']
    simpa [low] using h
  | cons pass passes ih =>
    have rest := ih (by omega) (passWaits cfg apart inside free low pass h)
    have timer : max (max (left - 1) 0 - (passes.length : Int)) 0 = max (left - ((pass :: passes).length : Int)) 0 := by
      simp only [List.length_cons]
      omega
    have output : (if 0 < max (left - 1) 0 ∧ max (left - 1) 0 ≤ (passes.length : Int) then some DoorOperations.doLock
        else if left = 1 then some .doLock else operation) =
        if 0 < left ∧ left ≤ ((pass :: passes).length : Int) then some .doLock else operation := by
      simp only [List.length_cons]
      by_cases one : left = 1
      · subst one
        simp
      · rw [if_neg one]
        refine if_congr ?_ rfl rfl
        constructor <;> intro h <;> omega
    rwa [timer,output] at rest

end

/- A door is open for its whole time, to the pass: after the step that opened it, however it did,
and while nothing opens it again, its outputs are unlocked for twelve passes and locked with the
thirteenth. -/
theorem opensExactly (apart : ∀ i, i ≠ d → outputs cfg i &&& outputs cfg d = 0) (s : State n) (a : Step n)
    (opened : openings d s.log < openings d (step cfg s a).log) {k : Nat} (inside : (outputs cfg d).getLsbD k = true)
    (free : adminBit cfg d ((step cfg s a).doors d).admDisableMask k = false) (unlocked : driven (step cfg s a).log k = some .doUnlock)
    (passes : List (Pass n)) :
    let later := passes.foldl (fun s pass => mainLoop cfg pass s) (step cfg s a)
    openings d later.log = openings d (step cfg s a).log →
      driven later.log k = some (if (passes.length : Int) < doorOpenTime then .doUnlock else .doLock) ∧
      (later.doors d).doorLockTimer = max (doorOpenTime - passes.length) 0 := by
  intro later quiet
  have start' : Waits d k (openings d (step cfg s a).log) ((step cfg s a).doors d).admDisableMask doorOpenTime (some .doUnlock) (step cfg s a) :=
    .inr ⟨rfl,stepOpened cfg a s opened,rfl,unlocked⟩
  rcases passesWait cfg apart inside free (by decide) passes start' with more | ⟨_,timer,_,output⟩
  · exact absurd more (by rw [quiet]; exact lt_irrefl _)
  · refine ⟨output.trans ?_,timer⟩
    by_cases short : (passes.length : Int) < doorOpenTime
    · rw [if_pos short,if_neg fun h => absurd h.2 (by omega)]
    · rw [if_neg short,if_pos ⟨by decide,by omega⟩]

/- Two doors with a card reader each; a card opens the first. -/
def cardSite : Config 2 := site 1 modeCard (fun _ => none)
def welcome : Step 2 := .processUserInfo ⟨doorA,.A⟩ ⟨[0x07],.dataIsCard,.dataOk,fun _ => ⟨1,[]⟩⟩
def waiting (k : Nat) : State 2 :=
  (List.replicate k (quietPass 0x0c)).foldl (fun s pass => mainLoop cardSite pass s) (step cardSite (start cardSite []) welcome)

set_option maxRecDepth 10000 in
theorem welcomeExactly : driven (waiting 12).log 0 = some .doUnlock ∧ driven (waiting 13).log 0 = some .doLock := by
  have apart : ∀ i, i ≠ doorA → outputs cardSite i &&& outputs cardSite doorA = 0 := by decide
  have opens := opensExactly cardSite apart (start cardSite []) welcome (by decide) (k := 0)
    (by decide) (by decide) (by decide)
  exact ⟨(opens (List.replicate 12 (quietPass 0x0c)) (by decide)).1,(opens (List.replicate 13 (quietPass 0x0c)) (by decide)).1⟩

end AccessControl.OpenTime
