import AccessControl.EventBounds
import AccessControl.LockSteps

/-! The receive buffer of the remote control, byte by byte: what `recvfrom` leaves in it, the
terminator behind that, the cutting and reading of the words, and the one reply to them. -/
namespace AccessControl.DatagramBounds
open BitMask DoorTable DoorController RemoteControl Traced Run LockSteps

structure Buffer where
  bytes : Bytes
  size : bytes.length = bufSize

inductive Use where
  | recvfrom (count : Nat)
  | load (index : Nat)
  | store (index : Nat)
  | event (use : EventSend.Use)
  deriving DecidableEq, Repr

def Buffer.set (buf : Buffer) (index : Nat) (b : Byte) : Buffer := ⟨buf.bytes.set index b,by rw [List.length_set,buf.size]⟩

def load (buf : Buffer) (index : Nat) : Trace Use Byte := use (.load index) buf.bytes[index]?
def store (buf : Buffer) (index : Nat) (b : Byte) : Trace Use Buffer :=
  use (.store index) (if index < bufSize then some (buf.set index b) else none)

def recvfrom (buf : Buffer) (datagram : Bytes) : Trace Use (Buffer × Nat) := do
  let got := datagram.take bufSize
  note (.recvfrom got.length)
  return (⟨got ++ buf.bytes.drop got.length,by
    have size := buf.size
    have short : got.length ≤ bufSize := List.length_take_le _ _
    rw [List.length_append,List.length_drop]
    omega⟩,got.length)

/- `strspn`, `strcspn` and `strlen`: from `k` on to the first byte of a kind, where `rest` is what the
buffer holds from `k` on. -/
def scan (stop : Byte → Bool) : Bytes → Nat → Trace Use Nat
  | [], k => use (.load k) none
  | c :: rest, k => do
    note (.load k)
    if stop c then return k else scan stop rest (k + 1)

def scanFrom (stop : Byte → Bool) (buf : Buffer) (k : Nat) : Trace Use Nat := scan stop (buf.bytes.drop k) k

/- The token by its place, none being the null pointer, and where the next call goes on. -/
def strtokR (buf : Buffer) (s : Nat) : Trace Use (Buffer × Option Nat × Nat) := do
  let start ← scanFrom (fun c => !isDelim c) buf s
  let first ← load buf start
  if first = 0 then return (buf,none,start)
  else do
    let stop ← scanFrom (fun c => isDelim c || c == 0) buf start
    let last ← load buf stop
    if last = 0 then return (buf,some start,stop)
    else do
      let buf ← store buf stop 0
      return (buf,some start,stop + 1)

def textAt (buf : Buffer) (k : Nat) : Trace Use Bytes := do
  let stop ← scanFrom (· == 0) buf k
  return (buf.bytes.drop k).take (stop - k)

def wordAt (buf : Buffer) : Option Nat → Trace Use (Option Bytes)
  | none => return none
  | some k => do
    let text ← textAt buf k
    return some text

def readWords (buf : Buffer) : Trace Use Words := do
  let (buf,cmd,tmp) ← strtokR buf 0
  let (buf,door,tmp) ← strtokR buf tmp
  let (buf,arg1,tmp) ← strtokR buf tmp
  let (buf,argX,_) ← strtokR buf tmp
  let cmd ← wordAt buf cmd
  let door ← wordAt buf door
  let arg1 ← wordAt buf arg1
  let argX ← wordAt buf argX
  return ⟨cmd,door,arg1,argX⟩

def received (stack : Buffer) (datagram : Bytes) : Trace Use Words := do
  let (buf,ret) ← recvfrom stack datagram
  let buf ← store buf ret 0
  readWords buf

variable {n : Nat} (cfg : Config n)

/- What becomes of the words, once their event is reported. -/
def answer (w : Words) (db : Sqlite) (s : State n) : State n :=
  let s := s.emit (.sendEvent (.remoteCtrl w.cmd w.arg1 w.argX) w.door)
  match w.cmd, w.door, w.arg1 with
  | some cmd, some door, some arg1 =>
    match getDoorByName cfg door with
    | some i => command cfg db i cmd door arg1 (w.argX.map toInt) s
    | none => sendto rErr s
  | _, _, _ => sendto rErr s

/- `stack` is the buffer before the call. -/
def checkNetwork (eventHost past : Option Bytes) (stack : Buffer) (datagram : Bytes) (db : Sqlite) (s : State n) : Trace Use (State n) :=
  if datagram = [] then return s
  else do
    let w ← received stack datagram
    let _ ← lift .event (EventSend.sendEvent eventHost past (.remoteCtrl w.cmd w.arg1 w.argX) w.door)
    return answer cfg w db s

def Inside : Use → Prop
  | .recvfrom count => count ≤ bufSize
  | .load index => index < bufSize
  | .store index => index < bufSize
  | .event _ => True

section
variable {buf : Buffer} {stop : Byte → Bool} {k : Nat} {xs ys text word : Bytes} {c : Byte}

theorem scanValue (before : ∀ x ∈ xs, stop x = false) (found : stop c = true) :
    (scan stop (xs ++ c :: ys) k).value = some (k + xs.length) := by
  induction xs generalizing k with
  | nil =>
    rw [List.nil_append,scan,valueBind,valueNote,Option.bind_some,if_pos found]
    rfl
  | cons x xs ih =>
    have other : ¬ stop x = true := by rw [before x List.mem_cons_self]; decide
    rw [List.cons_append,scan,valueBind,valueNote,Option.bind_some,if_neg other,ih fun x mem => before x (List.mem_cons_of_mem _ mem)]
    rw [List.length_cons,Nat.add_assoc,Nat.add_comm 1]

theorem scanStops (whole : xs.length = bufSize - k) : Stops Inside (scan stop xs k) := by
  induction xs generalizing k with
  | nil =>
    rw [List.length_nil] at whole
    exact stopsUse (iff_of_false (by simp) fun inside => absurd (show k < bufSize from inside) (by omega))
  | cons x xs ih =>
    rw [List.length_cons] at whole
    refine stopsBind (stopsNote (show k < bufSize by omega)) fun _ => ?_
    split
    · exact stopsPure _
    · exact ih (by omega)

theorem scanFromStops (stop : Byte → Bool) (buf : Buffer) (k : Nat) : Stops Inside (scanFrom stop buf k) := by
  refine scanStops ?_
  rw [List.length_drop,buf.size]

theorem loadStops (buf : Buffer) (k : Nat) : Stops Inside (load buf k) := by
  refine stopsUse ?_
  change _ ↔ k < bufSize
  rw [← buf.size]
  simp

theorem storeStops (buf : Buffer) (k : Nat) (b : Byte) : Stops Inside (store buf k b) := by
  refine stopsUse ?_
  change _ ↔ k < bufSize
  split <;> simp_all

theorem strtokStops (buf : Buffer) (s : Nat) : Stops Inside (strtokR buf s) := by
  unfold strtokR
  refine stopsBind (scanFromStops _ _ _) fun start => stopsBind (loadStops _ _) fun first => ?_
  split
  · exact stopsPure _
  · refine stopsBind (scanFromStops _ _ _) fun stop => stopsBind (loadStops _ _) fun last => ?_
    split
    · exact stopsPure _
    · exact stopsBind (storeStops _ _ _) fun _ => stopsPure _

theorem wordStops (buf : Buffer) (place : Option Nat) : Stops Inside (wordAt buf place) := by
  cases place with
  | none => exact stopsPure _
  | some k => exact stopsBind (stopsBind (scanFromStops _ _ _) fun _ => stopsPure _) fun _ => stopsPure _

theorem wordsStop (buf : Buffer) : Stops Inside (readWords buf) := by
  unfold readWords
  refine stopsBind (strtokStops _ _) fun _ => stopsBind (strtokStops _ _) fun _ => stopsBind (strtokStops _ _) fun _ =>
    stopsBind (strtokStops _ _) fun _ => ?_
  exact stopsBind (wordStops _ _) fun _ => stopsBind (wordStops _ _) fun _ => stopsBind (wordStops _ _) fun _ =>
    stopsBind (wordStops _ _) fun _ => stopsPure _

/- Reading the datagram has a value just when it stays within the buffer. -/
theorem receivedStops (stack : Buffer) (datagram : Bytes) : Stops Inside (received stack datagram) := by
  unfold received recvfrom
  refine stopsBind (stopsBind (stopsNote (List.length_take_le _ _)) fun _ => stopsPure _) fun _ => ?_
  exact stopsBind (storeStops _ _ _) fun _ => wordsStop _

/- From `k` on the buffer holds this text and its NUL; a word has no separator in it. -/
structure Text (buf : Buffer) (k : Nat) (text : Bytes) : Prop where
  whole : ∃ rest, buf.bytes.drop k = text ++ 0 :: rest
  plain : ∀ b ∈ text, b ≠ 0

structure Word (buf : Buffer) (k : Nat) (word : Bytes) : Prop extends Text buf k word where
  solid : ∀ b ∈ word, isDelim b = false

theorem loadText {b : Byte} {rest : Bytes} (whole : buf.bytes.drop k = b :: rest) : (load buf k).value = some b := by
  unfold load
  rw [valueUse,← Nat.add_zero k,← List.getElem?_drop,whole]
  rfl

theorem textValue (text' : Text buf k text) : (textAt buf k).value = some text := by
  obtain ⟨rest,whole⟩ := text'.whole
  have ended : (scanFrom (· == 0) buf k).value = some (k + text.length) := by
    rw [scanFrom,whole]
    exact scanValue (fun b mem => beq_eq_false_iff_ne.mpr (text'.plain b mem)) rfl
  rw [textAt,valueBind,ended,Option.bind_some,whole,Nat.add_sub_cancel_left,valuePure,List.take_left]

/- Cutting at a separator leaves every word whole. -/
theorem wordKept {stop : Nat} {d : Byte} {rest : Bytes} (cut : buf.bytes.drop stop = d :: rest) (delim : isDelim d = true)
    (word' : Word buf k word) : Word (buf.set stop 0) k word := by
  obtain ⟨⟨⟨more,whole⟩,plain⟩,solid⟩ := word'
  have here : buf.bytes[stop]? = some d := by
    rw [← Nat.add_zero stop,← List.getElem?_drop,cut]
    rfl
  refine ⟨⟨?_,plain⟩,solid⟩
  unfold Buffer.set
  dsimp only
  by_cases before : stop < k
  · exact ⟨more,(List.drop_set_of_lt before).trans whole⟩
  · obtain ⟨j,rfl⟩ : ∃ j, stop = k + j := ⟨stop - k,by omega⟩
    rw [← List.getElem?_drop,whole] at here
    rw [List.drop_set,if_neg (by omega),whole,Nat.add_sub_cancel_left]
    have behind : word.length < j := by
      by_contra inside
      rcases Nat.lt_or_ge j word.length with low | high
      · rw [List.getElem?_append_left low,List.getElem?_eq_getElem low] at here
        have other := solid _ (List.getElem_mem low)
        rw [Option.some.inj here,delim] at other
        cases other
      · have last : j = word.length := by omega
        subst last
        rw [List.getElem?_append_right (le_refl _),Nat.sub_self] at here
        cases Option.some.inj here
        exact absurd delim (by decide)
    obtain ⟨i,rfl⟩ : ∃ i, j = word.length + (i + 1) := ⟨j - word.length - 1,by omega⟩
    exact ⟨more.set i 0,by rw [List.set_append_right _ _ (by omega),Nat.add_sub_cancel_left,List.set_cons_succ]⟩

/- A word as it was found, and the place that was noted for it. -/
def Placed (buf : Buffer) : Option Nat → Option Bytes → Prop
  | none, none => True
  | some k, some word => Word buf k word
  | _, _ => False

theorem placedKept {stop : Nat} {d : Byte} {rest : Bytes} (cut : buf.bytes.drop stop = d :: rest) (delim : isDelim d = true)
    {place : Option Nat} {found : Option Bytes} (placed : Placed buf place found) : Placed (buf.set stop 0) place found := by
  cases place <;> cases found
  case some.some k word => exact wordKept cut delim placed
  all_goals exact placed

theorem placedValue {place : Option Nat} {found : Option Bytes} (placed : Placed buf place found) :
    (wordAt buf place).value = some found := by
  cases place <;> cases found
  case none.none => rfl
  case some.some k word =>
    have text' : Text buf k word := Word.toText placed
    rw [wordAt,valueBind,textValue text']
    rfl
  all_goals exact placed.elim

/- What one call of `strtok` makes of a text: nothing but separators, a last word, or a word before another separator. -/
inductive Token : Bytes → Option Bytes × Bytes → Prop where
  | none {lead : Bytes} (blank : ∀ b ∈ lead, isDelim b = true) : Token lead (none,[])
  | last {lead word : Bytes} {c : Byte} (blank : ∀ b ∈ lead, isDelim b = true) (solid : ∀ b ∈ c :: word, isDelim b = false) :
      Token (lead ++ c :: word) (some (c :: word),[])
  | more {lead word rest : Bytes} {c d : Byte} (blank : ∀ b ∈ lead, isDelim b = true) (solid : ∀ b ∈ c :: word, isDelim b = false)
      (delim : isDelim d = true) : Token (lead ++ (c :: word ++ d :: rest)) (some (c :: word),rest)

theorem strtokToken (text : Bytes) : Token text (strtok text) := by
  have blank : ∀ b ∈ text.takeWhile isDelim, isDelim b = true := fun b mem => List.mem_takeWhile_imp mem
  have split := List.takeWhile_append_dropWhile (p := isDelim) (l := text)
  cases front : text.dropWhile isDelim with
  | nil =>
    have value : strtok text = (none,[]) := by rw [strtok,front]
    rw [front,List.append_nil] at split
    rw [value]
    exact .none (split ▸ blank)
  | cons c tail =>
    have head := List.head?_dropWhile_not isDelim text
    rw [front] at head split
    have first : (!isDelim c) = true := by simpa using head
    have word : (c :: tail).takeWhile (fun c => !isDelim c) = c :: tail.takeWhile (fun c => !isDelim c) := List.takeWhile_cons_of_pos first
    have rest : (c :: tail).dropWhile (fun c => !isDelim c) = tail.dropWhile (fun c => !isDelim c) := List.dropWhile_cons_of_pos first
    have value : strtok text = (some (c :: tail.takeWhile (fun c => !isDelim c)),(tail.dropWhile (fun c => !isDelim c)).drop 1) := by
      rw [← word,← rest,strtok,front]
    have solid : ∀ b ∈ c :: tail.takeWhile (fun c => !isDelim c), isDelim b = false := by
      intro b mem
      rw [← word] at mem
      simpa using List.mem_takeWhile_imp mem
    have halves := List.takeWhile_append_dropWhile (p := fun c => !isDelim c) (l := tail)
    rw [value,← split]
    cases back : tail.dropWhile (fun c => !isDelim c) with
    | nil =>
      rw [back,List.append_nil] at halves
      rw [halves] at solid ⊢
      exact .last blank solid
    | cons d more =>
      have next := List.head?_dropWhile_not (fun c => !isDelim c) tail
      rw [back] at next halves
      have whole : c :: tail = c :: tail.takeWhile (fun c => !isDelim c) ++ d :: more := by rw [List.cons_append,halves]
      rw [whole]
      exact .more blank solid (by simpa using next)

/- The words noted so far stay as they are; the next one is that of `strtok`, and so is what is left. -/
structure Cut (buf after : Buffer) (token : Option Bytes × Bytes) (place : Option Nat) (stop : Nat) : Prop where
  found : Placed after place token.1
  left : Text after stop token.2
  kept : ∀ place found, Placed buf place found → Placed after place found

theorem strtokCuts (text' : Text buf k text) :
    ∃ after place stop, (strtokR buf k).value = some (after,place,stop) ∧ Cut buf after (strtok text) place stop := by
  obtain ⟨⟨rest,whole⟩,plain⟩ := text'
  have token := strtokToken text
  generalize strtok text = found at token ⊢
  have none' : ∀ b ∈ ([] : Bytes), b ≠ 0 := fun _ mem => absurd mem List.not_mem_nil
  have skipped : ∀ {lead : Bytes}, (∀ b ∈ lead, isDelim b = true) → ∀ b ∈ lead, (!isDelim b) = false := by
    intro lead blank b mem
    rw [blank b mem]
    rfl
  have past : ∀ {k : Nat} {xs ys : Bytes}, buf.bytes.drop k = xs ++ ys → buf.bytes.drop (k + xs.length) = ys := by
    intro k xs ys same
    rw [← List.drop_drop,same,List.drop_left]
  cases token with
  | none blank =>
    have start : (scanFrom (fun c => !isDelim c) buf k).value = some (k + text.length) := by
      rw [scanFrom,whole]
      exact scanValue (skipped blank) (by decide)
    refine ⟨buf,none,k + text.length,?_,trivial,⟨⟨rest,past whole⟩,none'⟩,fun _ _ placed => placed⟩
    rw [strtokR,valueBind,start,Option.bind_some,valueBind,loadText (past whole),Option.bind_some,if_pos rfl]
    rfl
  | @last lead word c blank solid =>
    have plainWord : ∀ b ∈ c :: word, b ≠ 0 := fun b mem => plain b (List.mem_append_right _ mem)
    rw [List.append_assoc] at whole
    have here : buf.bytes.drop (k + lead.length) = (c :: word) ++ 0 :: rest := past whole
    have ended : buf.bytes.drop (k + lead.length + (c :: word).length) = 0 :: rest := past here
    have start : (scanFrom (fun c => !isDelim c) buf k).value = some (k + lead.length) := by
      rw [scanFrom,whole,List.cons_append]
      exact scanValue (skipped blank) (by rw [solid c List.mem_cons_self]; rfl)
    have stop : (scanFrom (fun c => isDelim c || c == 0) buf (k + lead.length)).value = some (k + lead.length + (c :: word).length) := by
      rw [scanFrom,here]
      exact scanValue (fun b mem => by rw [solid b mem,beq_false_of_ne (plainWord b mem)]; rfl) (by decide)
    refine ⟨buf,some (k + lead.length),k + lead.length + (c :: word).length,?_,⟨⟨⟨rest,here⟩,plainWord⟩,solid⟩,⟨⟨rest,ended⟩,none'⟩,
      fun _ _ placed => placed⟩
    rw [strtokR,valueBind,start,Option.bind_some,valueBind,loadText here,Option.bind_some,if_neg (plainWord c List.mem_cons_self)]
    rw [valueBind,stop,Option.bind_some,valueBind,loadText ended,Option.bind_some,if_pos rfl]
    rfl
  | @more lead word more c d blank solid delim =>
    have plainWord : ∀ b ∈ c :: word, b ≠ 0 := fun b mem => plain b (List.mem_append_right _ (List.mem_append_left _ mem))
    have plainMore : ∀ b ∈ more, b ≠ 0 := fun b mem => plain b (List.mem_append_right _ (List.mem_append_right _ (List.mem_cons_of_mem _ mem)))
    have visible : d ≠ 0 := plain d (List.mem_append_right _ (List.mem_append_right _ List.mem_cons_self))
    rw [List.append_assoc,List.append_assoc] at whole
    have here : buf.bytes.drop (k + lead.length) = (c :: word) ++ d :: (more ++ 0 :: rest) := past whole
    have ended : buf.bytes.drop (k + lead.length + (c :: word).length) = d :: (more ++ 0 :: rest) := past here
    generalize at' : k + lead.length + (c :: word).length = at_ at ended
    have start : (scanFrom (fun c => !isDelim c) buf k).value = some (k + lead.length) := by
      rw [scanFrom,whole,List.cons_append]
      exact scanValue (skipped blank) (by rw [solid c List.mem_cons_self]; rfl)
    have stop : (scanFrom (fun c => isDelim c || c == 0) buf (k + lead.length)).value = some at_ := by
      rw [scanFrom,here,← at']
      exact scanValue (fun b mem => by rw [solid b mem,beq_false_of_ne (plainWord b mem)]; rfl) (by rw [delim]; rfl)
    have room : at_ < bufSize := by
      have length := congrArg List.length ended
      rw [List.length_drop,buf.size,List.length_cons] at length
      omega
    have stored : (store buf at_ 0).value = some (buf.set at_ 0) := by rw [store,valueUse,if_pos room]
    have cut : (buf.set at_ 0).bytes.drop (k + lead.length) = (c :: word) ++ 0 :: (more ++ 0 :: rest) := by
      have inside : ¬ at_ < k + lead.length := by omega
      have offset : at_ - (k + lead.length) - (c :: word).length = 0 := by omega
      rw [Buffer.set,List.drop_set,if_neg inside,here,List.set_append_right _ _ (by omega),offset,List.set_cons_zero]
    have behind : (buf.set at_ 0).bytes.drop (at_ + 1) = more ++ 0 :: rest := by
      have first : buf.bytes.drop at_ = [d] ++ (more ++ 0 :: rest) := ended
      rw [Buffer.set,List.drop_set_of_lt (Nat.lt_succ_self at_)]
      exact past first
    refine ⟨buf.set at_ 0,some (k + lead.length),at_ + 1,?_,⟨⟨⟨_,cut⟩,plainWord⟩,solid⟩,⟨⟨rest,behind⟩,plainMore⟩,
      fun _ _ placed => placedKept ended delim placed⟩
    rw [strtokR,valueBind,start,Option.bind_some,valueBind,loadText here,Option.bind_some,if_neg (plainWord c List.mem_cons_self)]
    rw [valueBind,stop,Option.bind_some,valueBind,loadText ended,Option.bind_some,if_neg visible,valueBind,stored]
    rfl

theorem wordsValue (text' : Text buf 0 text) : (readWords buf).value =
    let (cmd,text) := strtok text
    let (door,text) := strtok text
    let (arg1,text) := strtok text
    some ⟨cmd,door,arg1,(strtok text).1⟩ := by
  obtain ⟨buf₁,cmd,tmp₁,first,cut₁⟩ := strtokCuts text'
  obtain ⟨buf₂,door,tmp₂,second,cut₂⟩ := strtokCuts cut₁.left
  obtain ⟨buf₃,arg1,tmp₃,third,cut₃⟩ := strtokCuts cut₂.left
  obtain ⟨buf₄,argX,tmp₄,fourth,cut₄⟩ := strtokCuts cut₃.left
  unfold readWords
  simp only [valueBind,first,second,third,fourth,Option.bind_some,valuePure]
  rw [placedValue (cut₄.kept _ _ (cut₃.kept _ _ (cut₂.kept _ _ cut₁.found))),
    placedValue (cut₄.kept _ _ (cut₃.kept _ _ cut₂.found)),placedValue (cut₄.kept _ _ cut₃.found),placedValue cut₄.found]
  rfl

/- What `recvfrom` leaves of a datagram that has room for its terminator. -/
def filled (stack : Buffer) (datagram : Bytes) (short : datagram.length < bufSize) : Buffer :=
  ⟨datagram ++ 0 :: stack.bytes.drop (datagram.length + 1),by
    have size := stack.size
    rw [List.length_append,List.length_cons,List.length_drop]
    omega⟩

theorem filledText (stack : Buffer) (datagram : Bytes) (short : datagram.length < bufSize) :
    Text (filled stack datagram short) 0 (datagram.takeWhile (fun c => c != 0)) := by
  refine ⟨?_,fun b mem => by simpa using List.mem_takeWhile_imp mem⟩
  have halves := List.takeWhile_append_dropWhile (p := fun c : Byte => c != 0) (l := datagram)
  rw [List.drop_zero,filled]
  cases back : datagram.dropWhile (fun c => c != 0) with
  | nil =>
    rw [back,List.append_nil] at halves
    exact ⟨_,by rw [halves]⟩
  | cons z rest =>
    have next := List.head?_dropWhile_not (fun c : Byte => c != 0) datagram
    rw [back] at next halves
    have zero : z = 0 := by simpa using next
    subst zero
    refine ⟨rest ++ 0 :: stack.bytes.drop (datagram.length + 1),?_⟩
    dsimp only
    nth_rewrite 1 [← halves]
    rw [List.append_assoc,List.cons_append]

/- The terminator has its place only behind a datagram that is shorter than the buffer. -/
theorem receivedValue (stack : Buffer) (datagram : Bytes) :
    (received stack datagram).value = if datagram.length < bufSize then some (words datagram) else none := by
  have size := stack.size
  unfold received
  rw [valueBind]
  by_cases short : datagram.length < bufSize
  · have all : datagram.take bufSize = datagram := List.take_of_length_le short.le
    have next := List.drop_eq_getElem_cons (show datagram.length < stack.bytes.length by omega)
    have stored : ((recvfrom stack datagram).value.bind fun got => (store got.1 got.2 0).value) = some (filled stack datagram short) := by
      unfold recvfrom store
      simp only [valueBind,valueNote,Option.bind_some,valuePure,valueUse,Buffer.set,filled,all]
      rw [if_pos short,Option.some.injEq,Buffer.mk.injEq,next,List.set_append_right _ _ (le_refl _),Nat.sub_self,List.set_cons_zero]
    have text := filledText stack datagram short
    obtain ⟨got,first,last⟩ := Option.bind_eq_some_iff.mp stored
    rw [if_pos short,first,Option.bind_some]
    dsimp only
    rw [valueBind,last,Option.bind_some,wordsValue text,words,all]
  · have long : ¬ (datagram.take bufSize).length < bufSize := by
      rw [List.length_take]
      omega
    rw [if_neg short]
    unfold recvfrom store
    simp only [valueBind,valueNote,Option.bind_some,valuePure,valueUse,if_neg long,Option.bind_none]

theorem receivedInside (stack : Buffer) (datagram : Bytes) : Every Inside (received stack datagram) ↔ datagram.length < bufSize := by
  have stops : (received stack datagram).value.isSome ↔ Every Inside (received stack datagram) := receivedStops stack datagram
  rw [← stops,receivedValue]
  split <;> simp_all

/- The event is reported when there is something where its name is looked for. -/
theorem eventValue (eventHost past : Option Bytes) (type action arg door : Option Bytes) :
    (EventSend.sendEvent eventHost past (.remoteCtrl type action arg) door).value.isSome ↔ (eventHost.isSome → past.isSome) := by
  have written : ∀ text, (do
      if EventSend.bufSize ≤ text.length then return none
      else do
        let text ← EventSend.details (.remoteCtrl type action arg) door text
        if EventSend.bufSize ≤ text.length then return none
        else do
          let text ← EventSend.append text EventSend.closing
          return if EventSend.bufSize ≤ text.length ∨ eventHost = none then none else some text : Trace EventSend.Use (Option Bytes)).value.isSome := by
    intro text
    split
    · rfl
    · rename_i room
      rw [valueBind,EventSend.details,EventShell.appendValue (by omega),Option.bind_some]
      split
      · rfl
      · rename_i more
        rw [valueBind,EventShell.appendValue (by omega)]
        rfl
  unfold EventSend.sendEvent
  rw [valueBind]
  cases eventHost with
  | none =>
    rw [EventSend.greeting,valuePure,Option.bind_some]
    exact iff_of_true (written _) fun hosted => absurd hosted (by decide)
  | some host =>
    rw [EventSend.greeting,valueBind,valueUse]
    cases past with
    | none => exact iff_of_false Bool.false_ne_true fun h => absurd (h rfl) (by decide)
    | some name =>
      refine iff_of_true ?_ fun _ => rfl
      have outside : (EventSend.eventNames[EventSend.eventType (.remoteCtrl type action arg)]?).or (some name) = some name := rfl
      rw [outside,Option.bind_some,EventShell.appendValue (Nat.zero_le _),Option.bind_some]
      exact written _

end

/- What a reply is, and the effects that are none. -/
inductive Reply : Bytes → Prop where
  | ok : Reply rOk
  | err : Reply rErr
  | info {line : Bytes} (room : (ascii ['I','N','F','O',' '] ++ line).length < bufSize) : Reply (ascii ['I','N','F','O',' '] ++ line)
  | dbInfo {line : Bytes} (room : (ascii ['D','B',' ','I','N','F','O',' '] ++ line).length < bufSize) :
      Reply (ascii ['D','B',' ','I','N','F','O',' '] ++ line)

def reply : Effect n → Option Bytes
  | .sendto text => some text
  | _ => none

def Mute (e : Effect n) : Prop := reply e = none

/- From `s` to `t` one reply is sent. -/
def Answered (s t : State n) : Prop :=
  ∃ added, t.log = added ++ s.log ∧ ∃ text, Reply text ∧ added.filterMap reply = [text]

section
variable {s t u : State n}

theorem muteNone {added : List (Effect n)} (mute : ∀ e ∈ added, Mute e) : added.filterMap reply = [] :=
  List.filterMap_eq_nil_iff.mpr mute

theorem answeredSend {text : Bytes} (known : Reply text) (s : State n) : Answered s (sendto text s) := ⟨[.sendto text],rfl,text,known,rfl⟩

theorem answeredAfter (first : Grows Mute s.log t.log) (answered : Answered t u) : Answered s u := by
  obtain ⟨before,log,mute⟩ := first
  obtain ⟨added,last,text,known,one⟩ := answered
  refine ⟨added ++ before,by rw [last,log,List.append_assoc],text,known,?_⟩
  rw [List.filterMap_append,one,muteNone mute,List.append_nil]

theorem answeredBefore (answered : Answered s t) (last : Grows Mute t.log u.log) : Answered s u := by
  obtain ⟨added,log,text,known,one⟩ := answered
  obtain ⟨after,last,mute⟩ := last
  refine ⟨after ++ added,by rw [last,log,List.append_assoc],text,known,?_⟩
  rw [List.filterMap_append,one,muteNone mute,List.nil_append]

theorem statusMute (i) (s : State n) : Grows Mute s.log (signalDoorStatus cfg i s).log :=
  signalStatusGrows cfg (fun _ => rfl) (fun _ => rfl) i s

theorem unlockMute (i mask) (s : State n) : Grows Mute s.log (unlockDoor cfg i mask s).1.log :=
  unlockGrows cfg (fun _ _ => rfl) (fun _ => rfl) (fun _ => rfl) (fun _ _ => rfl) s

theorem lockMute (i mask) (s : State n) : Grows Mute s.log (lockDoor cfg i mask s).1.log :=
  lockGrows cfg (fun _ => rfl) (fun _ => rfl) (fun _ _ => rfl) mask s

/- A formatted reply is itself, or `ERR` where it does not fit. -/
theorem replyAnswered {text : Bytes} (known : text.length < bufSize → Reply text) (s : State n) : Answered s (replyText text s) := by
  unfold replyText
  split
  · rename_i room
    exact answeredSend (known room) s
  · exact answeredSend .err s

theorem getAnswered (db i door arg1) (s : State n) : Answered s (getCommand db i door arg1 s) := by
  unfold getCommand
  split
  · refine replyAnswered (fun room => ?_) s
    simp only [List.append_assoc] at room ⊢
    exact .info room
  · split
    · refine replyAnswered (fun room => ?_) s
      simp only [List.append_assoc] at room ⊢
      exact .dbInfo room
    · exact answeredSend .err s

theorem rowLog (door state arg action done) (s : State n) : (dbSetUnset door state arg action done s).1.log = s.log := by
  unfold dbSetUnset
  split
  · cases action <;> rfl
  · rfl

theorem setRowLog (door clear mode arg2 db) (s : State n) : (setRow door clear mode arg2 db s).1.log = s.log := by
  unfold setRow
  rw [rowLog,rowLog]

theorem setAnswered (db i door arg1 arg2) (s : State n) : Answered s (setCommand cfg db i door arg1 arg2 s) := by
  have closing : ∀ (u : State n) (ret : Nat), Grows Mute s.log u.log →
      Answered s (if ret = 0 then sendto rOk (signalDoorStatus cfg i u) else sendto rErr (signalDoorStatus cfg i u)) := by
    intro u ret grows
    refine answeredAfter (growsTrans grows (statusMute cfg i u)) ?_
    split
    · exact answeredSend .ok _
    · exact answeredSend .err _
  unfold setCommand
  split
  · refine closing (setRow door wLock wUnlock arg2 db (setUnlock cfg i arg2 s)).1 _ ?_
    rw [setRowLog]
    exact unlockMute cfg i arg2 (s.update i _)
  · split
    · refine closing (setRow door wUnlock wLock arg2 db (setLock cfg i arg2 s)).1 _ ?_
      rw [setRowLog]
      exact lockMute cfg i arg2 (s.update i _)
    · exact answeredSend .err s

theorem unsetAnswered (db i door arg1 arg2) (s : State n) : Answered s (unsetCommand cfg db i door arg1 arg2 s) := by
  have kept := rowLog door arg1 arg2 .dbUnset db.first s
  unfold unsetCommand
  dsimp only
  generalize dbSetUnset door arg1 arg2 .dbUnset db.first s = done at kept ⊢
  obtain ⟨t,ret⟩ := done
  dsimp only at kept ⊢
  split
  · split
    · refine answeredAfter ?_ (answeredSend .ok _)
      have muted := statusMute cfg i (unset i t)
      rwa [unset,updateLog,kept] at muted
    · exact answeredAfter (by rw [kept]; exact growsRefl _) (answeredSend .ok t)
  · exact answeredAfter (by rw [kept]; exact growsRefl _) (answeredSend .err t)

theorem doAnswered (i arg1 arg2) (s : State n) : Answered s (doCommand cfg i arg1 arg2 s) := by
  have driving : ∀ (u : State n) (ret : Mask), Grows Mute s.log u.log →
      Answered s (if ret ≠ 0 then signalDoorStatus cfg i (sendto rOk u) else sendto rErr u) := by
    intro u ret grows
    refine answeredAfter grows ?_
    split
    · exact answeredBefore (answeredSend .ok u) (statusMute cfg i _)
    · exact answeredSend .err u
  unfold doCommand
  split
  · exact driving _ _ (unlockMute cfg i arg2 s)
  · split
    · exact driving _ _ (lockMute cfg i arg2 s)
    · split
      · exact answeredAfter (growsRefl _) (answeredSend .ok (block i arg2 s))
      · split
        · exact answeredAfter (growsRefl _) (answeredSend .ok (unblock i arg2 s))
        · exact answeredSend .err s

theorem commandAnswered (db i cmd door arg1 argX) (s : State n) : Answered s (command cfg db i cmd door arg1 argX s) := by
  unfold command
  split
  · exact getAnswered db i door arg1 s
  · split
    · exact setAnswered cfg db i door arg1 _ s
    · split
      · exact unsetAnswered cfg db i door arg1 _ s
      · split
        · exact doAnswered cfg i arg1 _ s
        · exact answeredSend .err s

theorem answerAnswered (w db) (s : State n) : Answered s (answer cfg w db s) := by
  have mute : Mute (n := n) (.sendEvent (.remoteCtrl w.cmd w.arg1 w.argX) w.door) := rfl
  have reported : Grows Mute s.log (s.emit (.sendEvent (.remoteCtrl w.cmd w.arg1 w.argX) w.door)).log := growsCons mute _
  refine answeredAfter reported ?_
  unfold answer
  dsimp only
  split
  · split
    · exact commandAnswered cfg db _ _ _ _ _ _
    · exact answeredSend .err _
  · exact answeredSend .err _

end

/- The bytes of this module are those the remote control was given before. -/
theorem answerWords (datagram db) (s : State n) (some' : datagram ≠ []) :
    RemoteControl.checkNetwork cfg datagram db s = answer cfg (words datagram) db s := by
  rw [RemoteControl.checkNetwork,if_neg some']
  rfl

/- The datagram is handled within the buffer and one reply is sent. -/
def Handled (s : State n) (x : Trace Use (State n)) : Prop :=
  Every Inside x ∧ ∃ t, x.value = some t ∧ Answered s t

theorem handledOnce (eventHost past : Option Bytes) (stack : Buffer) (datagram : Bytes) (db : Sqlite) (s : State n) (some' : datagram ≠ []) :
    Handled s (checkNetwork cfg eventHost past stack datagram db s) ↔
      datagram.length < bufSize ∧ (eventHost.isSome → past.isSome) := by
  have value := receivedValue stack datagram
  unfold Handled checkNetwork
  rw [if_neg some']
  by_cases short : datagram.length < bufSize
  · rw [if_pos short] at value
    rw [everyGiven value,valueBind,value,Option.bind_some,and_iff_right ((receivedInside stack datagram).mpr short),and_iff_right short]
    rw [← eventValue eventHost past (words datagram).cmd (words datagram).arg1 (words datagram).argX (words datagram).door]
    constructor
    · rintro ⟨-,t,done,-⟩
      rw [valueBind] at done
      obtain ⟨_,reported,_⟩ := Option.bind_eq_some_iff.mp done
      rw [valueLift] at reported
      rw [reported]
      rfl
    · intro reported
      obtain ⟨sent,reported⟩ := Option.isSome_iff_exists.mp reported
      refine ⟨everyBind.mpr ⟨(everyLift _ _).mpr fun _ _ => trivial,fun _ _ => everyPure _⟩,_,?_,answerAnswered cfg (words datagram) db s⟩
      rw [valueBind,valueLift,reported]
      rfl
  · refine iff_of_false (fun handled => ?_) fun h => short h.1
    exact short ((receivedInside stack datagram).mp (everyBind.mp handled.1).1)

def stack : Buffer := ⟨List.replicate bufSize 0,List.length_replicate⟩
def getInfoA : Bytes := ascii ['g','e','t',' ','A',' ','i','n','f','o']

theorem infoOnce : Handled (initial []) (checkNetwork airlock none none stack getInfoA ⟨true,true⟩ (initial [])) :=
  (handledOnce airlock none none stack getInfoA ⟨true,true⟩ (initial []) (by decide)).mpr ⟨by decide,fun hosted => absurd hosted (by decide)⟩

/- A datagram of 128 bytes puts its terminator behind the buffer; with an event host the name is looked for behind the table. -/
theorem datagramStrays :
    ¬ Handled (initial []) (checkNetwork airlock none none stack (List.replicate 128 0x61) ⟨true,true⟩ (initial [])) ∧
    ¬ Handled (initial []) (checkNetwork airlock (some (ascii ['h'])) none stack getInfoA ⟨true,true⟩ (initial [])) := by
  refine ⟨fun handled => ?_,fun handled => ?_⟩
  · have short := ((handledOnce _ _ _ _ _ _ _ (by simp)).mp handled).1
    rw [List.length_replicate] at short
    exact absurd short (by decide)
  · exact absurd (((handledOnce _ _ _ _ _ _ _ (by decide)).mp handled).2 rfl) (by decide)

end AccessControl.DatagramBounds
