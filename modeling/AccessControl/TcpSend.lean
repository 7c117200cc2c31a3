import Mathlib.Data.List.Basic

/-! Sending a log line to the log host: the addresses of the host are tried in their order until one
takes the line. What is opened on the way and what is given back, whichever calls fail. -/
namespace AccessControl.TcpSend

/- An address of the host, and what the calls return for it. -/
structure Address where
  stream : Bool
  socket : Int
  connect : Int
  send : Int
  deriving DecidableEq, Repr

/- A call with its handle and its result. -/
inductive Call where
  | socket (sh : Int)
  | connect (sh ret : Int)
  | send (sh len ret : Int)
  | close (sh : Int)
  | freeaddrinfo
  | free
  deriving DecidableEq, Repr

/- The result of `getaddrinfo` with its list; where it fails the pointer is what it was before. -/
structure NetInfo where
  ret : Int
  list : List Address
  unset : Bool
  deriving DecidableEq, Repr

section
variable (len : Int)

/- The loop over the addresses, with the result so far. -/
def attempts : List Address → Int → List Call × Int
  | [], ret => ([],ret)
  | info :: next, ret =>
    if info.stream then
      let sh := info.socket
      if sh < 0 then
        let (calls,ret) := attempts next (-2)
        (.socket sh :: calls,ret)
      else if info.connect ≠ 0 then
        let (calls,ret) := attempts next (-2)
        (.socket sh :: .connect sh info.connect :: .close sh :: calls,ret)
      else if info.send < 0 then
        let (calls,ret) := attempts next (-2)
        (.socket sh :: .connect sh info.connect :: .send sh len info.send :: .close sh :: calls,ret)
      else ([.socket sh,.connect sh info.connect,.send sh len info.send,.close sh],info.send)
    else attempts next ret

def tcpSend (netInfo : NetInfo) : List Call × Int :=
  let (calls,ret) := if netInfo.ret = 0 then attempts len netInfo.list 0 else ([],-1)
  let found := if netInfo.ret = 0 then !netInfo.list.isEmpty else netInfo.unset
  (calls ++ (if found then [.freeaddrinfo] else []) ++ [.free],ret)

end

/- What may be called next, and on which handle. -/
inductive Phase where
  | idle
  | opened (sh : Int)
  | connected (sh : Int)
  | failed (sh : Int)
  | sent (sh : Int)
  | finished
  | released
  | freed
  deriving DecidableEq, Repr

/- A handle is used for what it is ready for and closed before the next is opened; nothing is
opened once the line was taken, and the message goes last. -/
def protocol : Phase → Call → Option Phase
  | .idle, .socket sh => some (if sh < 0 then .idle else .opened sh)
  | .opened sh, .connect handle ret => if handle = sh then some (if ret = 0 then .connected sh else .failed sh) else none
  | .connected sh, .send handle _ ret => if handle = sh then some (if ret < 0 then .failed sh else .sent sh) else none
  | .failed sh, .close handle => if handle = sh then some .idle else none
  | .sent sh, .close handle => if handle = sh then some .finished else none
  | .idle, .freeaddrinfo => some .released
  | .finished, .freeaddrinfo => some .released
  | .idle, .free => some .freed
  | .finished, .free => some .freed
  | .released, .free => some .freed
  | _, _ => none

/- The line is taken at this address. -/
def takes (info : Address) : Bool := info.stream && decide (0 ≤ info.socket) && decide (info.connect = 0) && decide (0 ≤ info.send)

/- What is returned for a list of addresses: of the first that takes the line, or -2 for those that did not. -/
def outcome (list : List Address) : Int :=
  match list.find? takes with
  | some info => info.send
  | none => if list.any Address.stream then -2 else 0

section
variable {len : Int} {list : List Address}

/- From one address to the next the loop is idle; it is finished by the first that takes the line. -/
theorem attemptsKeep (len ret : Int) (list : List Address) :
    (attempts len list ret).1.foldlM protocol .idle = some (if (list.find? takes).isSome then .finished else .idle) ∧
    (attempts len list ret).2 = match list.find? takes with
      | some info => info.send
      | none => if list.any Address.stream then -2 else ret := by
  induction list generalizing ret with
  | nil => exact ⟨rfl,rfl⟩
  | cons info next ih =>
    obtain ⟨later,value⟩ := ih (-2)
    have again : ∀ calls : List Call, calls.foldlM protocol .idle = some .idle → takes info = false → info.stream = true →
        (calls ++ (attempts len next (-2)).1).foldlM protocol .idle =
          some (if ((info :: next).find? takes).isSome then .finished else .idle) ∧
        (attempts len next (-2)).2 = match (info :: next).find? takes with
          | some info => info.send
          | none => if (info :: next).any Address.stream then -2 else ret := by
      intro calls kept refused stream
      rw [List.find?_cons_of_neg (by rw [refused]; decide),List.any_cons,stream,List.foldlM_append,kept]
      refine ⟨later,value.trans ?_⟩
      cases next.find? takes with
      | none => simp
      | some info => rfl
    rw [attempts]
    by_cases stream : info.stream = true
    · rw [if_pos stream]
      dsimp only
      by_cases opens : info.socket < 0
      · rw [if_pos opens]
        refine again [.socket info.socket] ?_ ?_ stream
        · simp [protocol,opens]
        · simp [takes,Int.not_le.mpr opens]
      · rw [if_neg opens]
        by_cases connects : info.connect ≠ 0
        · rw [if_pos connects]
          refine again [.socket info.socket,.connect info.socket info.connect,.close info.socket] ?_ ?_ stream
          · simp [protocol,opens,connects]
          · simp [takes,connects]
        · rw [if_neg connects]
          have connected : info.connect = 0 := not_not.mp connects
          by_cases lost : info.send < 0
          · rw [if_pos lost]
            refine again [.socket info.socket,.connect info.socket info.connect,.send info.socket len info.send,.close info.socket] ?_ ?_ stream
            · simp [protocol,opens,connected,lost]
            · simp [takes,Int.not_le.mpr lost]
          · rw [if_neg lost]
            have taken : takes info = true := by simp [takes,stream,Int.not_lt.mp opens,connected,Int.not_lt.mp lost]
            rw [List.find?_cons_of_pos taken]
            refine ⟨?_,rfl⟩
            simp [protocol,opens,connected,lost]
    · rw [if_neg stream]
      have refused : takes info = false := by simp [takes,stream]
      obtain ⟨later,value⟩ := ih ret
      rw [List.find?_cons_of_neg (by rw [refused]; decide),List.any_cons]
      refine ⟨later,value.trans ?_⟩
      simp [stream]

theorem attemptsHold (len ret : Int) (list : List Address) : .freeaddrinfo ∉ (attempts len list ret).1 := by
  induction list generalizing ret with
  | nil => exact List.not_mem_nil
  | cons info next ih =>
    rw [attempts]
    dsimp only
    repeat' split
    all_goals simp [ih]

end

/- Whichever calls fail, each handle that was opened is closed before the next, the line goes out
through the first address that takes it and through no other, and the message is freed at the end.
A line for which no address was tried counts as sent; where the host is not found, what is freed
is whatever the pointer held before. -/
theorem linesTried (len : Int) (netInfo : NetInfo) :
    (tcpSend len netInfo).1.foldlM protocol .idle = some .freed ∧
    (tcpSend len netInfo).2 = (if netInfo.ret = 0 then outcome netInfo.list else -1) ∧
    (.freeaddrinfo ∈ (tcpSend len netInfo).1 ↔ if netInfo.ret = 0 then netInfo.list ≠ [] else netInfo.unset = true) := by
  have release : ∀ (calls : List Call) (found taken : Bool), calls.foldlM protocol .idle = some (if taken then .finished else .idle) →
      (calls ++ (if found then [Call.freeaddrinfo] else []) ++ [Call.free]).foldlM protocol .idle = some .freed := by
    intro calls found taken ends
    rw [List.append_assoc,List.foldlM_append,ends]
    cases found <;> cases taken <;> rfl
  obtain ⟨ends,value⟩ := attemptsKeep len 0 netInfo.list
  have held := attemptsHold len 0 netInfo.list
  unfold tcpSend
  by_cases resolved : netInfo.ret = 0
  · simp only [if_pos resolved]
    refine ⟨release _ _ _ ends,value,?_⟩
    generalize (attempts len netInfo.list 0).1 = tried at held ⊢
    cases netInfo.list <;> simp [held]
  · simp only [if_neg resolved]
    refine ⟨release [] netInfo.unset false rfl,trivial,?_⟩
    cases netInfo.unset <;> simp

end AccessControl.TcpSend
