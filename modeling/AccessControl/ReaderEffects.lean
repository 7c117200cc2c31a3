import AccessControl.ReaderSession

/-! What the calls for one reader put into the log: whatever a property says of effects, it is to
hold of what no session sees, and of the resets and the timers of this reader. -/
namespace AccessControl.ReaderEffects
open DoorTable DoorController Run LockSteps ReaderSession

variable {n : Nat} (cfg : Config n)

structure Allows (P : Effect n → Prop) (q : ReaderId n) : Prop where
  inert : ∀ e, Inert e → P e
  reset : P (.resetDoorAuth q)
  timer : P (.twoFactorTimer q)

section
variable {P : Effect n → Prop} {q : ReaderId n} (allows : Allows P q) {s t : State n}
include allows

theorem asideAllows (h : Aside s t) : Grows P s.log t.log := growsMono allows.inert h.log

theorem signalAllows (signal) (s : State n) : Grows P s.log (s.emit (.readerSignal signal q)).log :=
  growsCons (allows.inert (.readerSignal signal q) trivial) s.log

theorem resetAllows (s : State n) : Grows P s.log (resetDoorAuth q s).log :=
  growsCons (P := P) (e := .resetDoorAuth q) allows.reset s.log

theorem timerAllows (s : State n) : Grows P s.log (DoorController.twoFactorTimer q s).log := by
  have noted : Grows P s.log (s.emit (.twoFactorTimer q)).log := growsCons allows.timer s.log
  unfold DoorController.twoFactorTimer
  dsimp only
  split
  · split
    · have dropped := growsTrans noted (resetAllows allows ((s.emit (.twoFactorTimer q)).setReader q
        fun reader => {reader with twoFactorTimer := reader.twoFactorTimer - 1}))
      exact growsTrans dropped (growsTrans (growsCons (allows.inert (.clearReaderData q) trivial) _) (signalAllows allows .errUsage _))
    · exact growsTrans noted (signalAllows allows .pinQuiet _)
  · exact noted

theorem authMaskAllows (database) (s : State n) : Grows P s.log (authMask cfg database q s).1.log := by
  have asked : ∀ query, Grows P s.log (ask database q query s).1.log := by
    intro query
    obtain ⟨older,same,grown⟩ := askGrows (P := P) (fun event door => allows.inert (.sendEvent event door) trivial) database q query s
    rw [same]
    exact growsTrans grown (growsCons (allows.inert (.access q query _) trivial) older)
  have access : ∀ mode, Grows P s.log (getAccessMask cfg database q mode s).1.log := fun mode => asked _
  have starts : ∀ s : State n, Grows P s.log (startTwoFactor q s).log := by
    intro s
    unfold startTwoFactor
    split
    · exact signalAllows allows .pin s
    · exact growsRefl _
  have switched := authMaskSwitched cfg database q s
  generalize authMask cfg database q s = out at switched ⊢
  cases switched with
  | nothing => exact growsRefl _
  | waiting => exact starts s
  | access mode => exact access mode
  | stopped mode => exact access mode
  | denied mode => exact growsTrans (access mode) (starts _)
  | keys => exact asked _

theorem authoriseAllows (database) (s : State n) : Grows P s.log (authorise cfg database q s).log := by
  have before := authMaskAllows cfg allows database s
  unfold authorise
  generalize authMask cfg database q s = out at before ⊢
  obtain ⟨u,mask⟩ := out
  dsimp only at before ⊢
  split
  · exact growsTrans before (growsTrans (asideAllows allows (asideUnlock cfg q.door mask _)) (resetAllows allows _))
  · split
    · exact growsTrans before (growsTrans (signalAllows allows .errAuth u) (resetAllows allows _))
    · exact before

/- Behind the note of the callback itself. -/
theorem callbackAllows (cb) (s : State n) : Grows P (.processUserInfo q cb :: s.log) (processUserInfo cfg q cb s).log := by
  unfold processUserInfo
  dsimp only
  split
  · rcases storeCases cfg q cb (s.emit (.processUserInfo q cb)) with ⟨signal,_,refused⟩ | ⟨_,f,stored,_⟩
    · rw [refused]
      exact growsTrans (resetAllows allows (s.emit (.processUserInfo q cb))) (signalAllows allows signal _)
    · rw [stored]
      exact authoriseAllows cfg allows cb.database ((s.emit (.processUserInfo q cb)).setReader q f)
  · exact signalAllows allows .errComm (s.emit (.processUserInfo q cb))

end
end AccessControl.ReaderEffects
