import AccessControl.BlockStream
import AccessControl.Md5
import AccessControl.UserDb

/-! The digest of RFC 1321 in its own terms, and that `md5.c` computes it however its message
is cut into updates, on either kind of machine, without touching a byte outside its arrays. -/
namespace AccessControl.Md5Digest
open BitMask BlockStream Md5
open UserDb (Md5)

structure Operation where
  round : Fin 4
  k : Fin 16
  t : Word
  s : Nat
  deriving DecidableEq, Repr

def roundFunction : Fin 4 → Word → Word → Word → Word
  | 0, x, y, z => (x &&& y) ||| (~~~x &&& z)
  | 1, x, y, z => (x &&& z) ||| (y &&& ~~~z)
  | 2, x, y, z => x ^^^ y ^^^ z
  | 3, x, y, z => y ^^^ (x ||| ~~~z)

def wordOf : Fin 4 → Nat → Fin 16
  | 0, i => ⟨i % 16,Nat.mod_lt _ (by decide)⟩
  | 1, i => ⟨(5 * i + 1) % 16,Nat.mod_lt _ (by decide)⟩
  | 2, i => ⟨(3 * i + 5) % 16,Nat.mod_lt _ (by decide)⟩
  | 3, i => ⟨(7 * i) % 16,Nat.mod_lt _ (by decide)⟩

def shifts : Fin 4 → List Nat
  | 0 => [7,12,17,22]
  | 1 => [5,9,14,20]
  | 2 => [4,11,16,23]
  | 3 => [6,10,15,21]

/- The table of sines. -/
def sines : List Word := [
  0xd76aa478,0xe8c7b756,0x242070db,0xc1bdceee,0xf57c0faf,0x4787c62a,0xa8304613,0xfd469501,
  0x698098d8,0x8b44f7af,0xffff5bb1,0x895cd7be,0x6b901122,0xfd987193,0xa679438e,0x49b40821,
  0xf61e2562,0xc040b340,0x265e5a51,0xe9b6c7aa,0xd62f105d,0x02441453,0xd8a1e681,0xe7d3fbc8,
  0x21e1cde6,0xc33707d6,0xf4d50d87,0x455a14ed,0xa9e3e905,0xfcefa3f8,0x676f02d9,0x8d2a4c8a,
  0xfffa3942,0x8771f681,0x6d9d6122,0xfde5380c,0xa4beea44,0x4bdecfa9,0xf6bb4b60,0xbebfbc70,
  0x289b7ec6,0xeaa127fa,0xd4ef3085,0x04881d05,0xd9d4d039,0xe6db99e5,0x1fa27cf8,0xc4ac5665,
  0xf4292244,0x432aff97,0xab9423a7,0xfc93a039,0x655b59c3,0x8f0ccc92,0xffeff47d,0x85845dd1,
  0x6fa87e4f,0xfe2ce6e0,0xa3014314,0x4e0811a1,0xf7537e82,0xbd3af235,0x2ad7d2bb,0xeb86d391]

def operation (i : Nat) : Operation :=
  let round := Fin.ofNat 4 (i / 16)
  ⟨round,wordOf round i,sines.getD i 0,(shifts round).getD (i % 4) 0⟩

def operations : List Operation := (List.range 64).map operation

/- One operation, after which each word moves up by one place. -/
def rotate (x : Fin 16 → Word) (w : Words) (o : Operation) : Words :=
  ⟨w.d,w.b + (w.a + roundFunction o.round w.b w.c w.d + x o.k + o.t).rotateLeft o.s,w.b,w.c⟩

def compress (w : Words) (block : Bytes) : Words :=
  let found := operations.foldl (rotate (little block)) w
  ⟨found.a + w.a,found.b + w.b,found.c + w.c,found.d + w.d⟩

def start : Words := ⟨0x67452301,0xefcdab89,0x98badcfe,0x10325476⟩

/- The length in bits counts modulo two words, of which the low one comes first. -/
def lengthBytes (size : Nat) : Bytes := out (BitVec.ofNat 32 (8 * size)) ++ out (BitVec.ofNat 32 (8 * size / 2^32))
def pad (message : Bytes) : Bytes :=
  message ++ 0x80 :: List.replicate ((119 - message.length % 64) % 64) 0 ++ lengthBytes message.length

theorem padWhole (message : Bytes) : (pad message).length % 64 = 0 := by
  rw [pad,List.length_append,List.length_append,List.length_cons,List.length_replicate]
  have short := Nat.mod_lt message.length (show 0 < 64 by decide)
  have eight : (lengthBytes message.length).length = 8 := rfl
  omega

/- `F` saves the complement: each bit of its first word chooses between the other two. -/
theorem choice (x y z : Word) : z ^^^ (x &&& (y ^^^ z)) = (x &&& y) ||| (~~~x &&& z) := by
  apply BitVec.eq_of_getLsbD_eq
  intro i hi
  simp only [BitVec.getLsbD_xor,BitVec.getLsbD_and,BitVec.getLsbD_or,BitVec.getLsbD_not,hi,decide_true,Bool.true_and]
  cases x.getLsbD i <;> cases y.getLsbD i <;> cases z.getLsbD i <;> rfl

def roundOf : Function → Fin 4
  | .F => 0
  | .G => 1
  | .H => 2
  | .H2 => 2
  | .I => 3

theorem valueRound (f : Function) (x y z : Word) : f.value x y z = roundFunction (roundOf f) x y z := by
  cases f with
  | F => exact choice x y z
  | G =>
    have swapped : G x y z = (z &&& x) ||| (~~~z &&& y) := choice z x y
    rw [BitVec.and_comm z,BitVec.and_comm _ y] at swapped
    exact swapped
  | H => rfl
  | H2 => exact (BitVec.xor_assoc x y z).symm
  | I => rfl

theorem rotation (x : Word) {s : Nat} (short : s < 32) : (x <<< s ||| (x &&& 0xffffffff) >>> (32 - s)) = x.rotateLeft s := by
  have whole : x &&& 0xffffffff = x := BitVec.and_allOnes
  rw [whole,BitVec.rotateLeft_def,Nat.mod_eq_of_lt short]

def next : Register → Register
  | .a => .b
  | .b => .c
  | .c => .d
  | .d => .a

/- The words in the order in which a step names them. -/
def view (r : Register) (w : Words) : Words := ⟨w.get r,w.get (next r),w.get (next (next r)),w.get (next (next (next r)))⟩

def index : Access → Fin 16
  | .set n => n
  | .get n => n

def operationOf (e : Step) : Operation := ⟨roundOf e.f,index e.x,e.t,e.s⟩

structure Named (r : Register) (e : Step) : Prop where
  first : e.a = r
  second : e.b = next r
  third : e.c = next (next r)
  fourth : e.d = next (next (next r))
  short : e.s < 32

instance (r : Register) (e : Step) : Decidable (Named r e) :=
  decidable_of_iff (e.a = r ∧ e.b = next r ∧ e.c = next (next r) ∧ e.d = next (next (next r)) ∧ e.s < 32)
    ⟨fun ⟨a,b,c,d,s⟩ => ⟨a,b,c,d,s⟩,fun h => ⟨h.first,h.second,h.third,h.fourth,h.short⟩⟩

/- Each step begins with the word that was last in the step before. -/
def chained : Register → List Step → Bool
  | r, [] => r == .a
  | r, e :: rest => decide (Named r e) && chained e.d rest

theorem operateRotate {r : Register} {e : Step} (named : Named r e) (x : Fin 16 → Word) (w : Words) :
    view e.d (operate e (x (index e.x)) w) = rotate x (view r w) (operationOf e) := by
  obtain ⟨first,second,third,fourth,short⟩ := named
  rw [operate,rotation _ short,valueRound,first,second,third,fourth]
  have sum : ∀ a f x t b : Word, (a + (f + x + t)).rotateLeft e.s + b = b + (a + f + x + t).rotateLeft e.s := by
    intro a f x t b
    rw [BitVec.add_comm b,BitVec.add_assoc a,BitVec.add_assoc a]
  cases r <;> simp only [view,next,Words.get,Words.set,rotate,operationOf,sum] 

theorem operateSteps {steps : List Step} {r : Register} (chain : chained r steps = true) (x : Fin 16 → Word) (w : Words) :
    steps.foldl (fun w e => operate e (x (index e.x)) w) w = (steps.map operationOf).foldl (rotate x) (view r w) := by
  induction steps generalizing r w with
  | nil =>
    have last : r = .a := by simpa [chained] using chain
    rw [last]
    rfl
  | cons e steps ih =>
    obtain ⟨named,rest⟩ := Bool.and_eq_true_iff.mp chain
    rw [List.foldl_cons,ih rest,operateRotate (of_decide_eq_true named),List.map_cons,List.foldl_cons]

/- Each word that is read back was stored before. -/
def readable (known : List (Fin 16)) : Access → Bool
  | .set _ => true
  | .get n => known.contains n

def served : List (Fin 16) → List Step → Bool
  | _, [] => true
  | known, e :: rest => readable known e.x && served (index e.x :: known) rest

def Stored (machine : Machine) (ptr : Bytes) (known : List (Fin 16)) (block : Block) : Prop :=
  machine = .portable → ∀ n ∈ known, block.get n = little ptr n

theorem getSet (block : Block) (n m : Fin 16) (value : Word) : (block.set n value n.isLt).get m = if m = n then value else block.get m := by
  refine (Vector.getElem_set n.isLt m.isLt).trans ?_
  simp only [Fin.ext_iff,eq_comm]
  rfl

theorem fetchStored {machine : Machine} {ptr : Bytes} {known : List (Fin 16)} {block : Block} {access : Access}
    (stored : Stored machine ptr known block) (fits : readable known access = true) :
    (fetch machine ptr block access).1 = little ptr (index access) ∧
      Stored machine ptr (index access :: known) (fetch machine ptr block access).2 := by
  cases machine with
  | direct => cases access <;> exact ⟨rfl,fun other => by cases other⟩
  | portable =>
    cases access with
    | set n =>
      refine ⟨rfl,fun _ m member => ?_⟩
      simp only [fetch,getSet]
      split
      · rename_i same
        rw [same]
      · rename_i differ
        exact stored rfl m ((List.mem_cons.mp member).resolve_left differ)
    | get n =>
      have before : n ∈ known := by simpa [readable] using fits
      refine ⟨stored rfl n before,fun _ m member => ?_⟩
      rcases List.mem_cons.mp member with rfl | member
      · exact stored rfl _ before
      · exact stored rfl m member

theorem stepsServed {machine : Machine} {ptr : Bytes} {steps : List Step} {known : List (Fin 16)} (serves : served known steps = true)
    {now : Words × Block} (stored : Stored machine ptr known now.2) :
    (steps.foldl (step machine ptr) now).1 = steps.foldl (fun w e => operate e (little ptr (index e.x)) w) now.1 := by
  induction steps generalizing known now with
  | nil => rfl
  | cons e steps ih =>
    obtain ⟨fits,rest⟩ := Bool.and_eq_true_iff.mp serves
    obtain ⟨value,kept⟩ := fetchStored stored fits
    have one : (step machine ptr now e).1 = operate e (little ptr (index e.x)) now.1 := by rw [← value,step]
    rw [List.foldl_cons,List.foldl_cons,← one]
    exact ih rest kept

theorem stepsNamed : chained .a steps = true := by decide
theorem stepsStored : served [] steps = true := by decide
theorem stepsOperations : steps.map operationOf = operations := by decide

/- The four rounds as the source has them are the sixty-four operations, on either machine. -/
theorem turnCompress (machine : Machine) (ctx : Ctx) (ptr : Bytes) : (turn machine ctx ptr).words = compress ctx.words ptr := by
  have found : (steps.foldl (step machine ptr) (ctx.words,ctx.block)).1 = operations.foldl (rotate (little ptr)) ctx.words := by
    rw [stepsServed stepsStored (fun _ n member => absurd member List.not_mem_nil),operateSteps stepsNamed,stepsOperations]
    rfl
  rw [compress,← found,turn,addSaved]

theorem compressTake (w : Words) (ptr : Bytes) : compress w (ptr.take 64) = compress w ptr := by
  have byte : ∀ k, k < 64 → (ptr.take 64).getD k 0 = ptr.getD k 0 := by
    intro k short
    rw [List.getD_eq_getElem?_getD,List.getD_eq_getElem?_getD,List.getElem?_take_of_lt short]
  have words : little (ptr.take 64) = little ptr := by
    funext n
    have short := n.isLt
    rw [little,little,byte _ (by omega),byte _ (by omega),byte _ (by omega),byte _ (by omega)]
  rw [compress,words,compress]

/- The arrays of the structure at work. -/
abbrev Taken := Stream Byte Words 64

def begin (w : Words) : Taken := fresh w (by decide)
theorem beginChain (w : Words) : (begin w).chain = w := rfl
theorem beginWaiting (w : Words) : (begin w).waiting = [] := rfl

def taken (message : Bytes) : Taken := absorb compress (begin start) message

structure Holds (ctx : Ctx) (s : Taken) : Prop where
  words : ctx.words = s.chain
  waiting : ctx.buffer.bytes.take s.waiting.length = s.waiting

/- The counters and the buffer are not the loop's. -/
structure Untouched (before after : Ctx) : Prop where
  lo : after.lo = before.lo
  hi : after.hi = before.hi
  buffer : after.buffer = before.buffer

theorem addSavedUntouched (ctx : Ctx) (found : Words × Block) : Untouched ctx (addSaved ctx found) := ⟨rfl,rfl,rfl⟩

theorem bodyLoopAbsorb (machine : Machine) (n : Nat) (ctx : Ctx) {data : Bytes} (enough : 64 * n ≤ data.length) :
    ∃ after, bodyLoop machine n ctx data = some (after,data.drop (64 * n)) ∧
      absorb compress (begin ctx.words) (data.take (64 * n)) = begin after.words ∧ Untouched ctx after := by
  induction n generalizing ctx data with
  | zero => exact ⟨ctx,rfl,rfl,rfl,rfl,rfl⟩
  | succ n ih =>
    have rest : 64 * n ≤ (data.drop 64).length := by
      rw [List.length_drop]
      omega
    obtain ⟨after,ran,absorbed,later⟩ := ih (turn machine ctx data) rest
    have first : Untouched ctx (turn machine ctx data) := addSavedUntouched ctx _
    have count : 64 + 64 * n = 64 * (n + 1) := by omega
    have split : data.take (64 * (n + 1)) = data.take 64 ++ (data.drop 64).take (64 * n) := by rw [← count,List.take_add]
    have whole : (data.take 64).length = 64 := by
      rw [List.length_take]
      omega
    have block : absorb compress (begin ctx.words) (data.take 64) = begin (turn machine ctx data).words := by
      rw [begin,absorbBlock compress _ _ whole,compressTake,← turnCompress machine]
      rfl
    refine ⟨after,?_,?_,later.lo.trans first.lo,later.hi.trans first.hi,later.buffer.trans first.buffer⟩
    · rw [bodyLoop,if_neg (by omega),ran,List.drop_drop,count]
    · rw [split,absorbAppend,block,absorbed]

theorem bodyAbsorb (machine : Machine) {n : Nat} (positive : 0 < n) (ctx : Ctx) {data : Bytes} (enough : 64 * n ≤ data.length) :
    ∃ after, body machine ctx data (64 * n) = some (after,data.drop (64 * n)) ∧
      absorb compress (begin ctx.words) (data.take (64 * n)) = begin after.words ∧ Untouched ctx after := by
  rw [body,if_pos ⟨by omega,by omega⟩,Nat.mul_div_cancel_left n (by decide)]
  exact bodyLoopAbsorb machine n ctx enough

theorem memcpyFits (buffer : Buffer) {offset : Nat} {data : Bytes} (fits : offset + data.length ≤ 64) :
    ∃ after, memcpy buffer offset data = some after ∧
      after.bytes = buffer.bytes.take offset ++ data ++ buffer.bytes.drop (offset + data.length) := by
  rw [memcpy,dif_pos fits]
  exact ⟨_,rfl,rfl⟩

section
variable {machine : Machine} {ctx : Ctx} {s : Taken} {data : Bytes}

theorem bufferWaits (holds : Holds ctx s) (room : s.waiting.length + data.length < 64) :
    ∃ buffer, memcpy ctx.buffer s.waiting.length data = some buffer ∧ Holds {ctx with buffer := buffer} (absorb compress s data) := by
  obtain ⟨buffer,copied,bytes⟩ := memcpyFits ctx.buffer (Nat.le_of_lt room)
  refine ⟨buffer,copied,?_⟩
  rw [absorbWaits compress room]
  refine ⟨holds.words,?_⟩
  show buffer.bytes.take (s.waiting ++ data).length = s.waiting ++ data
  rw [bytes,holds.waiting,List.take_left]

theorem bufferFills (machine : Machine) (holds : Holds ctx s) (full : s.waiting.length + data.length = 64) :
    ∃ buffer after, memcpy ctx.buffer s.waiting.length data = some buffer ∧
      body machine {ctx with buffer := buffer} buffer.bytes 64 = some (after,[]) ∧
      absorb compress s data = begin after.words ∧ after.lo = ctx.lo ∧ after.hi = ctx.hi := by
  obtain ⟨buffer,copied,bytes⟩ := memcpyFits ctx.buffer (Nat.le_of_eq full)
  have filled : buffer.bytes = s.waiting ++ data := by
    rw [bytes,holds.waiting,List.drop_eq_nil_of_le (by rw [full,ctx.buffer.sized]),List.append_nil]
  have whole : 64 * 1 ≤ buffer.bytes.length := by rw [buffer.sized]
  obtain ⟨after,ran,absorbed,untouched⟩ := bodyAbsorb machine Nat.one_pos {ctx with buffer := buffer} whole
  have all : buffer.bytes.take (64 * 1) = s.waiting ++ data := by rw [List.take_of_length_le (by rw [buffer.sized]),filled]
  have none : buffer.bytes.drop (64 * 1) = [] := List.drop_eq_nil_of_le (by rw [buffer.sized])
  rw [none] at ran
  refine ⟨buffer,after,copied,ran,?_,untouched.lo,untouched.hi⟩
  have size : (s.waiting ++ data).length = 64 := by rw [List.length_append,full]
  rw [← absorbed,all,absorbFills compress full,begin,absorbBlock compress _ _ size,holds.words]
  rfl

theorem wholeBlocksAbsorb (machine : Machine) (ctx : Ctx) (data : Bytes) :
    ∃ found, wholeBlocks machine ctx data = some (found,data.drop (64 * (data.length / 64))) ∧
      absorb compress (begin ctx.words) (data.take (64 * (data.length / 64))) = begin found.words ∧ Untouched ctx found := by
  by_cases long : 64 ≤ data.length
  · have count : data.length - data.length % 64 = 64 * (data.length / 64) := by omega
    rw [wholeBlocks,if_pos long,count]
    exact bodyAbsorb machine (by omega) ctx (by omega)
  · have none : 64 * (data.length / 64) = 0 := by omega
    rw [wholeBlocks,if_neg long,none]
    exact ⟨ctx,rfl,rfl,rfl,rfl,rfl⟩

/- The whole blocks go through where they lie, the rest to the front of the buffer. -/
theorem updateRestHolds (machine : Machine) (ctx : Ctx) (data : Bytes) :
    ∃ after, md5UpdateRest machine ctx data = some after ∧ Holds after (absorb compress (begin ctx.words) data) ∧
      after.lo = ctx.lo ∧ after.hi = ctx.hi := by
  obtain ⟨found,ran,absorbed,untouched⟩ := wholeBlocksAbsorb machine ctx data
  have left : (data.drop (64 * (data.length / 64))).length = data.length % 64 := by
    rw [List.length_drop]
    omega
  have short : (begin found.words).waiting.length + (data.drop (64 * (data.length / 64))).length < 64 := by
    rw [left,beginWaiting,List.length_nil]
    omega
  have empty : Holds found (begin found.words) := ⟨rfl,rfl⟩
  obtain ⟨buffer,copied,holds⟩ := bufferWaits empty short
  rw [beginWaiting,List.length_nil] at copied
  have all : absorb compress (begin ctx.words) data = absorb compress (begin found.words) (data.drop (64 * (data.length / 64))) := by
    rw [← absorbed,← absorbAppend,List.take_append_drop]
  refine ⟨{found with buffer := buffer},?_,?_,untouched.lo,untouched.hi⟩
  · simp only [md5UpdateRest,ran,List.take_of_length_le (Nat.le_of_eq left),copied,Option.bind_eq_bind,Option.bind_some,Option.pure_def]
  · rw [all]
    exact holds

theorem maskLow (x : Word) {k : Nat} {mask : Word} (ones : mask.toNat = 2^k - 1) : (x &&& mask).toNat = x.toNat % 2^k := by
  rw [BitVec.toNat_and,ones,Nat.and_two_pow_sub_one_eq_mod]

/- The low word holds twenty-nine bits of the count; its carry shows in that it got smaller. -/
structure Counted (lo hi : Word) (count : Nat) : Prop where
  low : lo.toNat = count % 2^29
  high : hi = BitVec.ofNat 32 (count / 2^29)

theorem countedUpdate {lo hi : Word} {count : Nat} (counted : Counted lo hi count) (size : Nat) :
    Counted (BitVec.ofNat 32 (lo.toNat + size) &&& 0x1fffffff)
      ((if BitVec.ofNat 32 (lo.toNat + size) &&& 0x1fffffff < lo then hi + 1 else hi) + BitVec.ofNat 32 (size >>> 29)) (count + size) := by
  obtain ⟨low,high⟩ := counted
  have sum : (BitVec.ofNat 32 (lo.toNat + size) &&& 0x1fffffff).toNat = (count + size) % 2^29 := by
    rw [maskLow _ (k := 29) rfl,BitVec.toNat_ofNat,low]
    omega
  refine ⟨sum,?_⟩
  rw [Nat.shiftRight_eq_div_pow,high]
  have carry : BitVec.ofNat 32 (lo.toNat + size) &&& 0x1fffffff < lo ↔ (count + size) / 2^29 = count / 2^29 + 1 + size / 2^29 := by
    rw [BitVec.lt_def,sum,low]
    omega
  have none : ¬BitVec.ofNat 32 (lo.toNat + size) &&& 0x1fffffff < lo → (count + size) / 2^29 = count / 2^29 + size / 2^29 := by
    rw [BitVec.lt_def,sum,low]
    omega
  split
  · rename_i smaller
    rw [carry.mp smaller,BitVec.ofNat_add,BitVec.ofNat_add]
    rfl
  · rename_i larger
    rw [none larger,BitVec.ofNat_add]

structure Absorbed (ctx : Ctx) (message : Bytes) : Prop where
  counted : Counted ctx.lo ctx.hi message.length
  holds : Holds ctx (taken message)

theorem takenAppend (message data : Bytes) : taken (message ++ data) = absorb compress (taken message) data :=
  absorbAppend compress (begin start) message data

theorem takenWaiting (message : Bytes) : (taken message).waiting.length = message.length % 64 := by
  rw [taken,absorbLength,beginWaiting,List.length_nil,Nat.zero_add]

theorem usedWaiting {ctx : Ctx} {message : Bytes} (absorbed : Absorbed ctx message) :
    (ctx.lo &&& 0x3f).toNat = (taken message).waiting.length := by
  rw [takenWaiting,maskLow _ (k := 6) rfl,absorbed.counted.low]
  omega

/- One update takes in its data, wherever the buffer stands. -/
theorem updateAbsorbs (machine : Machine) {ctx : Ctx} {message : Bytes} (absorbed : Absorbed ctx message) (data : Bytes) :
    ∃ after, md5Update machine ctx data = some after ∧ Absorbed after (message ++ data) := by
  have used := usedWaiting absorbed
  obtain ⟨counted,holds⟩ := absorbed
  have counts := countedUpdate counted data.length
  rw [← List.length_append] at counts
  -- the counters are written first, which changes neither the words nor the buffer
  generalize lows : BitVec.ofNat 32 (ctx.lo.toNat + data.length) &&& 0x1fffffff = lo at counts
  generalize highs : (if lo < ctx.lo then ctx.hi + 1 else ctx.hi) + BitVec.ofNat 32 (data.length >>> 29) = hi at counts
  have holds : Holds {ctx with lo := lo, hi := hi} (taken message) := ⟨holds.words,holds.waiting⟩
  have append := takenAppend message data
  simp only [md5Update,lows,highs,used]
  by_cases empty : (taken message).waiting.length = 0
  · rw [if_neg (by rw [empty]; decide)]
    obtain ⟨after,ran,held,low,high⟩ := updateRestHolds machine {ctx with lo := lo, hi := hi} data
    have same : begin ctx.words = taken message := streamExt holds.words (List.eq_nil_of_length_eq_zero empty).symm
    refine ⟨after,ran,?_,?_⟩
    · rw [low,high]
      exact counts
    · rw [append,← same]
      exact held
  · rw [if_pos empty]
    by_cases room : data.length < 64 - (taken message).waiting.length
    · rw [if_pos room]
      have waits : (taken message).waiting.length + data.length < 64 := by omega
      obtain ⟨buffer,copied,held⟩ := bufferWaits holds waits
      refine ⟨{ctx with lo := lo, hi := hi, buffer := buffer},?_,counts,?_⟩
      · simp only [copied,Option.bind_eq_bind,Option.bind_some,Option.pure_def]
      · rw [append]
        exact held
    · rw [if_neg room]
      have full : (taken message).waiting.length + (data.take (64 - (taken message).waiting.length)).length = 64 := by
        have short := (taken message).short
        rw [List.length_take]
        omega
      obtain ⟨buffer,found,copied,ran,block,low,high⟩ := bufferFills machine holds full
      obtain ⟨after,rest,held,lower,higher⟩ := updateRestHolds machine found (data.drop (64 - (taken message).waiting.length))
      refine ⟨after,?_,?_,?_⟩
      · simp only [copied,ran,rest,Option.bind_eq_bind,Option.bind_some]
      · rw [lower,higher,low,high]
        exact counts
      · rw [append]
        rw [← block,← absorbAppend,List.take_append_drop] at held
        exact held

theorem initAbsorbed (ctx : Ctx) : Absorbed (md5Init ctx) [] := ⟨⟨rfl,rfl⟩,rfl,rfl⟩

theorem updatesAbsorb (machine : Machine) {ctx : Ctx} {message : Bytes} (absorbed : Absorbed ctx message) (chunks : List Bytes) :
    ∃ after, chunks.foldlM (md5Update machine) ctx = some after ∧ Absorbed after (message ++ chunks.flatten) := by
  induction chunks generalizing ctx message with
  | nil => exact ⟨ctx,rfl,by rwa [List.flatten_nil,List.append_nil]⟩
  | cons chunk chunks ih =>
    obtain ⟨next,ran,taken⟩ := updateAbsorbs machine absorbed chunk
    obtain ⟨after,rest,done⟩ := ih taken
    refine ⟨after,?_,?_⟩
    · rw [List.foldlM_cons,ran]
      exact rest
    · rw [List.flatten_cons,← List.append_assoc]
      exact done

/- Two copies, the second behind the first, are one. -/
theorem memcpyAppend (buffer : Buffer) (offset : Nat) (first second : Bytes) (fits : offset + (first.length + second.length) ≤ 64) :
    ∃ between, memcpy buffer offset first = some between ∧
      memcpy between (offset + first.length) second = memcpy buffer offset (first ++ second) := by
  have size := buffer.sized
  have inside : offset + (first ++ second).length ≤ 64 := by rwa [List.length_append]
  have room : offset + first.length ≤ 64 := by omega
  have behind : offset + first.length + second.length ≤ 64 := by omega
  obtain ⟨between,copied,bytes⟩ := memcpyFits buffer room
  obtain ⟨after,later,found⟩ := memcpyFits between behind
  obtain ⟨whole,once,wanted⟩ := memcpyFits buffer inside
  have front : (buffer.bytes.take offset ++ first).length = offset + first.length := by
    rw [List.length_append,List.length_take]
    omega
  have kept : between.bytes.take (offset + first.length) = buffer.bytes.take offset ++ first := by
    rw [bytes,← front,List.take_left]
  have behind : between.bytes.drop (offset + first.length + second.length) = buffer.bytes.drop (offset + (first ++ second).length) := by
    rw [← List.drop_drop,bytes,← front,List.drop_left,front,List.drop_drop,List.length_append,Nat.add_assoc]
  have same : after = whole := by
    have equal : after.bytes = whole.bytes := by rw [found,wanted,kept,behind,List.append_assoc (buffer.bytes.take offset)]
    cases after; cases whole; cases equal; rfl
  exact ⟨between,copied,by rw [later,once,same]⟩

/- Behind the closing byte there is room for the length, in this block or in the next. -/
theorem padAbsorbs (machine : Machine) {ctx : Ctx} {message : Bytes} (absorbed : Absorbed ctx message) :
    ∃ after used zeros, md5Pad machine ctx = some (after,used) ∧
      Holds after (absorb compress (taken message) (0x80 :: List.replicate zeros 0)) ∧
      (absorb compress (taken message) (0x80 :: List.replicate zeros 0)).waiting.length = used ∧
      used ≤ 56 ∧ zeros + (56 - used) = (119 - message.length % 64) % 64 ∧ after.lo = ctx.lo ∧ after.hi = ctx.hi := by
  have used := usedWaiting absorbed
  have count := takenWaiting message
  have holds := absorbed.holds
  have short := (taken message).short
  generalize waiting : (taken message).waiting.length = w at used count short
  by_cases tight : 64 - (w + 1) < 8
  · have full : (taken message).waiting.length + (0x80 :: List.replicate (64 - (w + 1)) (0 : Byte)).length = 64 := by
      rw [List.length_cons,List.length_replicate]
      omega
    obtain ⟨buffer,after,copied,ran,block,low,high⟩ := bufferFills machine holds full
    obtain ⟨between,first,second⟩ := memcpyAppend ctx.buffer w [0x80] (List.replicate (64 - (w + 1)) 0) (by
      rw [List.length_singleton,List.length_replicate]
      omega)
    rw [waiting] at copied
    have filled : memset between (w + 1) (64 - (w + 1)) = some buffer := second.trans copied
    refine ⟨after,0,64 - (w + 1),?_,?_,?_,by decide,?_,low,high⟩
    · simp only [md5Pad,used,first,if_pos tight,filled,ran,Option.bind_eq_bind,Option.bind_some,Option.pure_def]
    · rw [block]
      exact ⟨rfl,rfl⟩
    · rw [block]
      rfl
    · omega
  · have room : (taken message).waiting.length + [(0x80 : Byte)].length < 64 := by
      rw [List.length_singleton]
      omega
    obtain ⟨buffer,copied,held⟩ := bufferWaits holds room
    rw [waiting] at copied
    refine ⟨{ctx with buffer := buffer},w + 1,0,?_,held,?_,by omega,by omega,rfl,rfl⟩
    · simp only [md5Pad,used,copied,if_neg tight,Option.bind_eq_bind,Option.bind_some,Option.pure_def]
    · rw [List.replicate_zero,absorbLength,List.length_singleton,waiting]
      omega

/- The two counters spell the length in bits modulo two words. -/
theorem countedBytes {lo hi : Word} {count : Nat} (counted : Counted lo hi count) : out (lo <<< 3) ++ out hi = lengthBytes count := by
  have low : lo <<< 3 = BitVec.ofNat 32 (8 * count) := by
    apply BitVec.eq_of_toNat_eq
    rw [BitVec.toNat_shiftLeft,BitVec.toNat_ofNat,counted.low,Nat.shiftLeft_eq]
    omega
  have high : 8 * count / 2^32 = count / 2^29 := by omega
  rw [lengthBytes,high,← counted.high,low]

theorem finalAbsorbs (machine : Machine) {ctx : Ctx} {message : Bytes} (absorbed : Absorbed ctx message) :
    ∃ words, md5Final machine ctx = some (outWords words,cleared) ∧ absorb compress (begin start) (pad message) = begin words := by
  obtain ⟨after,used,zeros,padded,held,waiting,room,gap,low,high⟩ := padAbsorbs machine absorbed
  generalize stream : absorb compress (taken message) (0x80 :: List.replicate zeros 0) = s at held waiting
  have length : out (after.lo <<< 3) ++ out after.hi = lengthBytes message.length := by
    rw [low,high]
    exact countedBytes absorbed.counted
  generalize shifted : after.lo <<< 3 = lo at length
  have holds : Holds {after with lo := lo} s := ⟨held.words,held.waiting⟩
  have gapLength : used + (List.replicate (56 - used) (0 : Byte)).length = 56 := by
    rw [List.length_replicate]
    omega
  obtain ⟨zeroed,first,second⟩ := memcpyAppend after.buffer used (List.replicate (56 - used) 0) (out lo ++ out after.hi) (by
      rw [← Nat.add_assoc,gapLength]
      exact Nat.le_refl 64)
  rw [gapLength] at second
  obtain ⟨between,third,fourth⟩ := memcpyAppend zeroed 56 (out lo) (out after.hi) (Nat.le_refl 64)
  have full : s.waiting.length + (List.replicate (56 - used) (0 : Byte) ++ (out lo ++ out after.hi)).length = 64 := by
    rw [List.length_append,waiting,← Nat.add_assoc,gapLength]
    rfl
  obtain ⟨buffer,found,copied,ran,block,_,_⟩ := bufferFills machine holds full
  have written : memcpy between 60 (out after.hi) = some buffer := by
    rw [waiting] at copied
    exact fourth.trans (second.trans copied)
  have erase : memset after.buffer used (64 - used - 8) = some zeroed := by
    have size : 64 - used - 8 = 56 - used := by omega
    rw [memset,size]
    exact first
  refine ⟨found.words,?_,?_⟩
  · refine Option.bind_eq_some_iff.mpr ⟨(after,used),padded,Option.bind_eq_some_iff.mpr ⟨zeroed,erase,?_⟩⟩
    show (memcpy zeroed 56 (out (after.lo <<< 3))).bind _ = _
    rw [shifted]
    refine Option.bind_eq_some_iff.mpr ⟨between,third,Option.bind_eq_some_iff.mpr ⟨buffer,written,?_⟩⟩
    exact Option.bind_eq_some_iff.mpr ⟨(found,[]),ran,rfl⟩
  · have zero : List.replicate ((119 - message.length % 64) % 64) (0 : Byte) = List.replicate zeros 0 ++ List.replicate (56 - used) 0 := by
      rw [← gap,List.replicate_append_replicate]
    have whole : pad message = message ++ ((0x80 : Byte) :: List.replicate zeros 0) ++
        (List.replicate (56 - used) (0 : Byte) ++ (out lo ++ out after.hi)) := by
      rw [pad,← length,zero]
      simp only [List.cons_append,List.append_assoc]
    rw [whole,← taken,takenAppend,takenAppend,stream,block]

/- Whatever the cuts, the updates leave the digest of RFC 1321 of all they were given: the
padded message goes through in blocks of 64, in order. -/
theorem md5Streamed (machine : Machine) (context : Ctx) (chunks : List Bytes) :
    ∃ blocks : List Bytes, blocks.flatten = pad chunks.flatten ∧ (∀ block ∈ blocks, block.length = 64) ∧
      (chunks.foldlM (md5Update machine) (md5Init context) >>= md5Final machine) =
        some (outWords (blocks.foldl compress start),cleared) := by
  obtain ⟨after,ran,absorbed⟩ := updatesAbsorb machine (initAbsorbed context) chunks
  obtain ⟨words,final,digested⟩ := finalAbsorbs machine absorbed
  obtain ⟨blocks,flat,whole⟩ := inBlocks (Nat.dvd_of_mod_eq_zero (padWhole chunks.flatten))
  have chain := absorbBlocks compress (show 0 < 64 by decide) whole start
  rw [flat] at chain
  have same : words = blocks.foldl compress start := by
    have equal := digested.symm.trans chain
    exact congrArg Stream.chain equal
  refine ⟨blocks,flat,whole,?_⟩
  rw [ran,← same]
  exact final

example : (md5Pin .portable cleared [0x61,0x62,0x63]).map Prod.fst = some
    [0x90,0x01,0x50,0x98,0x3c,0xd2,0x4f,0xb0,0xd6,0x96,0x3f,0x7d,0x28,0xe1,0x7f,0x72] := by decide +kernel

/- What the database gets for a pin: neither the machine nor what lay on the stack shows in it. -/
def digest (message : Bytes) : Bytes := outWords (taken (pad message)).chain
def md5Code (machine : Machine) (context : Ctx) : Md5 := fun pin i => (((md5Pin machine context pin).map Prod.fst).getD []).getD i 0

theorem md5PinDigest (machine : Machine) (context : Ctx) (pin : Bytes) : md5Pin machine context pin = some (digest pin,cleared) := by
  obtain ⟨after,ran,absorbed⟩ := updateAbsorbs machine (initAbsorbed context) pin
  obtain ⟨words,final,digested⟩ := finalAbsorbs machine absorbed
  rw [List.nil_append,← taken] at digested
  rw [md5Pin,ran,digest,digested,beginChain]
  exact final

theorem md5CodeDigest (machine : Machine) (context : Ctx) : md5Code machine context = fun pin i => (digest pin).getD i.val 0 := by
  funext pin i
  rw [md5Code,md5PinDigest]
  rfl

end
end AccessControl.Md5Digest
