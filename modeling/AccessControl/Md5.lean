import AccessControl.BitMask

/-! `libs/md5.c`. A copy or a read outside its array has no value. The words of a block are read
where they lie on a machine that allows it, and through `block` elsewhere. -/
namespace AccessControl.Md5
open BitMask

abbrev Word := BitVec 32

def F (x y z : Word) : Word := z ^^^ (x &&& (y ^^^ z))
def G (x y z : Word) : Word := y ^^^ (z &&& (x ^^^ y))
def H (x y z : Word) : Word := (x ^^^ y) ^^^ z
def H2 (x y z : Word) : Word := x ^^^ (y ^^^ z)
def I (x y z : Word) : Word := y ^^^ (x ||| ~~~z)

inductive Function | F | G | H | H2 | I
  deriving DecidableEq, Repr

def Function.value : Function → Word → Word → Word → Word
  | .F => Md5.F
  | .G => Md5.G
  | .H => Md5.H
  | .H2 => Md5.H2
  | .I => Md5.I

inductive Register | a | b | c | d
  deriving DecidableEq, Repr

structure Words where
  a : Word
  b : Word
  c : Word
  d : Word
  deriving DecidableEq, Repr

def Words.get (w : Words) : Register → Word
  | .a => w.a
  | .b => w.b
  | .c => w.c
  | .d => w.d

def Words.set (w : Words) (r : Register) (value : Word) : Words := match r with
  | .a => {w with a := value}
  | .b => {w with b := value}
  | .c => {w with c := value}
  | .d => {w with d := value}

/- `SET(n)` and `GET(n)`. -/
inductive Access | set (n : Fin 16) | get (n : Fin 16)
  deriving DecidableEq, Repr

inductive Machine | direct | portable
  deriving DecidableEq, Repr

structure Buffer where
  bytes : Bytes
  sized : bytes.length = 64
  deriving DecidableEq

abbrev Block := Vector Word 16

structure Ctx where
  lo : Word
  hi : Word
  words : Words
  buffer : Buffer
  block : Block

/- Four bytes of the input, the lowest first. -/
def little (ptr : Bytes) (n : Fin 16) : Word :=
  (ptr.getD (n * 4) 0).setWidth 32 ||| (ptr.getD (n * 4 + 1) 0).setWidth 32 <<< 8 |||
    (ptr.getD (n * 4 + 2) 0).setWidth 32 <<< 16 ||| (ptr.getD (n * 4 + 3) 0).setWidth 32 <<< 24

def fetch (machine : Machine) (ptr : Bytes) (block : Block) : Access → Word × Block
  | .set n => match machine with
    | .direct => (little ptr n,block)
    | .portable => (little ptr n,block.set n (little ptr n))
  | .get n => match machine with
    | .direct => (little ptr n,block)
    | .portable => (block[n],block)

structure Step where
  f : Function
  a : Register
  b : Register
  c : Register
  d : Register
  x : Access
  t : Word
  s : Nat
  deriving DecidableEq, Repr

/- The three lines of `STEP` over the word `x`. -/
def operate (e : Step) (x : Word) (w : Words) : Words :=
  let a := w.get e.a + (e.f.value (w.get e.b) (w.get e.c) (w.get e.d) + x + e.t)
  let a := a <<< e.s ||| (a &&& 0xffffffff) >>> (32 - e.s)
  w.set e.a (a + w.get e.b)

def step (machine : Machine) (ptr : Bytes) (now : Words × Block) (e : Step) : Words × Block :=
  let (x,block) := fetch machine ptr now.2 e.x
  (operate e x now.1,block)

def round1 : List Step := [
  ⟨.F,.a,.b,.c,.d,.set 0,0xd76aa478,7⟩, ⟨.F,.d,.a,.b,.c,.set 1,0xe8c7b756,12⟩, ⟨.F,.c,.d,.a,.b,.set 2,0x242070db,17⟩, ⟨.F,.b,.c,.d,.a,.set 3,0xc1bdceee,22⟩,
  ⟨.F,.a,.b,.c,.d,.set 4,0xf57c0faf,7⟩, ⟨.F,.d,.a,.b,.c,.set 5,0x4787c62a,12⟩, ⟨.F,.c,.d,.a,.b,.set 6,0xa8304613,17⟩, ⟨.F,.b,.c,.d,.a,.set 7,0xfd469501,22⟩,
  ⟨.F,.a,.b,.c,.d,.set 8,0x698098d8,7⟩, ⟨.F,.d,.a,.b,.c,.set 9,0x8b44f7af,12⟩, ⟨.F,.c,.d,.a,.b,.set 10,0xffff5bb1,17⟩, ⟨.F,.b,.c,.d,.a,.set 11,0x895cd7be,22⟩,
  ⟨.F,.a,.b,.c,.d,.set 12,0x6b901122,7⟩, ⟨.F,.d,.a,.b,.c,.set 13,0xfd987193,12⟩, ⟨.F,.c,.d,.a,.b,.set 14,0xa679438e,17⟩, ⟨.F,.b,.c,.d,.a,.set 15,0x49b40821,22⟩]
def round2 : List Step := [
  ⟨.G,.a,.b,.c,.d,.get 1,0xf61e2562,5⟩, ⟨.G,.d,.a,.b,.c,.get 6,0xc040b340,9⟩, ⟨.G,.c,.d,.a,.b,.get 11,0x265e5a51,14⟩, ⟨.G,.b,.c,.d,.a,.get 0,0xe9b6c7aa,20⟩,
  ⟨.G,.a,.b,.c,.d,.get 5,0xd62f105d,5⟩, ⟨.G,.d,.a,.b,.c,.get 10,0x02441453,9⟩, ⟨.G,.c,.d,.a,.b,.get 15,0xd8a1e681,14⟩, ⟨.G,.b,.c,.d,.a,.get 4,0xe7d3fbc8,20⟩,
  ⟨.G,.a,.b,.c,.d,.get 9,0x21e1cde6,5⟩, ⟨.G,.d,.a,.b,.c,.get 14,0xc33707d6,9⟩, ⟨.G,.c,.d,.a,.b,.get 3,0xf4d50d87,14⟩, ⟨.G,.b,.c,.d,.a,.get 8,0x455a14ed,20⟩,
  ⟨.G,.a,.b,.c,.d,.get 13,0xa9e3e905,5⟩, ⟨.G,.d,.a,.b,.c,.get 2,0xfcefa3f8,9⟩, ⟨.G,.c,.d,.a,.b,.get 7,0x676f02d9,14⟩, ⟨.G,.b,.c,.d,.a,.get 12,0x8d2a4c8a,20⟩]
def round3 : List Step := [
  ⟨.H,.a,.b,.c,.d,.get 5,0xfffa3942,4⟩, ⟨.H2,.d,.a,.b,.c,.get 8,0x8771f681,11⟩, ⟨.H,.c,.d,.a,.b,.get 11,0x6d9d6122,16⟩, ⟨.H2,.b,.c,.d,.a,.get 14,0xfde5380c,23⟩,
  ⟨.H,.a,.b,.c,.d,.get 1,0xa4beea44,4⟩, ⟨.H2,.d,.a,.b,.c,.get 4,0x4bdecfa9,11⟩, ⟨.H,.c,.d,.a,.b,.get 7,0xf6bb4b60,16⟩, ⟨.H2,.b,.c,.d,.a,.get 10,0xbebfbc70,23⟩,
  ⟨.H,.a,.b,.c,.d,.get 13,0x289b7ec6,4⟩, ⟨.H2,.d,.a,.b,.c,.get 0,0xeaa127fa,11⟩, ⟨.H,.c,.d,.a,.b,.get 3,0xd4ef3085,16⟩, ⟨.H2,.b,.c,.d,.a,.get 6,0x04881d05,23⟩,
  ⟨.H,.a,.b,.c,.d,.get 9,0xd9d4d039,4⟩, ⟨.H2,.d,.a,.b,.c,.get 12,0xe6db99e5,11⟩, ⟨.H,.c,.d,.a,.b,.get 15,0x1fa27cf8,16⟩, ⟨.H2,.b,.c,.d,.a,.get 2,0xc4ac5665,23⟩]
def round4 : List Step := [
  ⟨.I,.a,.b,.c,.d,.get 0,0xf4292244,6⟩, ⟨.I,.d,.a,.b,.c,.get 7,0x432aff97,10⟩, ⟨.I,.c,.d,.a,.b,.get 14,0xab9423a7,15⟩, ⟨.I,.b,.c,.d,.a,.get 5,0xfc93a039,21⟩,
  ⟨.I,.a,.b,.c,.d,.get 12,0x655b59c3,6⟩, ⟨.I,.d,.a,.b,.c,.get 3,0x8f0ccc92,10⟩, ⟨.I,.c,.d,.a,.b,.get 10,0xffeff47d,15⟩, ⟨.I,.b,.c,.d,.a,.get 1,0x85845dd1,21⟩,
  ⟨.I,.a,.b,.c,.d,.get 8,0x6fa87e4f,6⟩, ⟨.I,.d,.a,.b,.c,.get 15,0xfe2ce6e0,10⟩, ⟨.I,.c,.d,.a,.b,.get 6,0xa3014314,15⟩, ⟨.I,.b,.c,.d,.a,.get 13,0x4e0811a1,21⟩,
  ⟨.I,.a,.b,.c,.d,.get 4,0xf7537e82,6⟩, ⟨.I,.d,.a,.b,.c,.get 11,0xbd3af235,10⟩, ⟨.I,.c,.d,.a,.b,.get 2,0x2ad7d2bb,15⟩, ⟨.I,.b,.c,.d,.a,.get 9,0xeb86d391,21⟩]

def steps : List Step := round1 ++ round2 ++ round3 ++ round4

def addSaved (ctx : Ctx) (found : Words × Block) : Ctx :=
  {ctx with
    words := ⟨found.1.a + ctx.words.a,found.1.b + ctx.words.b,found.1.c + ctx.words.c,found.1.d + ctx.words.d⟩
    block := found.2}

/- One turn of the loop in `body`. -/
def turn (machine : Machine) (ctx : Ctx) (ptr : Bytes) : Ctx :=
  addSaved ctx (steps.foldl (step machine ptr) (ctx.words,ctx.block))

def bodyLoop (machine : Machine) : Nat → Ctx → Bytes → Option (Ctx × Bytes)
  | 0, ctx, ptr => some (ctx,ptr)
  | n + 1, ctx, ptr => if ptr.length < 64 then none else bodyLoop machine n (turn machine ctx ptr) (ptr.drop 64)

/- A size that is not a positive multiple of 64 wraps and the loop runs off the data. -/
def body (machine : Machine) (ctx : Ctx) (data : Bytes) (size : Nat) : Option (Ctx × Bytes) :=
  if size ≠ 0 ∧ size % 64 = 0 then bodyLoop machine (size / 64) ctx data else none

def memcpy (buffer : Buffer) (offset : Nat) (data : Bytes) : Option Buffer :=
  if fits : offset + data.length ≤ 64 then
    some ⟨buffer.bytes.take offset ++ data ++ buffer.bytes.drop (offset + data.length),by
      have := buffer.sized
      rw [List.length_append,List.length_append,List.length_take,List.length_drop]
      omega⟩
  else none

def memset (buffer : Buffer) (offset size : Nat) : Option Buffer := memcpy buffer offset (List.replicate size 0)

/- The structure is on the stack of its caller, with whatever was there. -/
def md5Init (ctx : Ctx) : Ctx := {ctx with words := ⟨0x67452301,0xefcdab89,0x98badcfe,0x10325476⟩, lo := 0, hi := 0}

def wholeBlocks (machine : Machine) (ctx : Ctx) (data : Bytes) : Option (Ctx × Bytes) :=
  if 64 ≤ data.length then body machine ctx data (data.length - data.length % 64) else some (ctx,data)

def md5UpdateRest (machine : Machine) (ctx : Ctx) (data : Bytes) : Option Ctx := do
  let (ctx,rest) ← wholeBlocks machine ctx data
  let buffer ← memcpy ctx.buffer 0 (rest.take (data.length % 64))
  return {ctx with buffer := buffer}

/- `unsigned long` has 32 bits at least, so the mask sees the same sum at every width. -/
def md5Update (machine : Machine) (ctx : Ctx) (data : Bytes) : Option Ctx :=
  let savedLo := ctx.lo
  let lo := BitVec.ofNat 32 (savedLo.toNat + data.length) &&& 0x1fffffff
  let hi := (if lo < savedLo then ctx.hi + 1 else ctx.hi) + BitVec.ofNat 32 (data.length >>> 29)
  let ctx := {ctx with lo := lo, hi := hi}
  let used := (savedLo &&& 0x3f).toNat
  if used ≠ 0 then
    let available := 64 - used
    if data.length < available then do
      let buffer ← memcpy ctx.buffer used data
      return {ctx with buffer := buffer}
    else do
      let buffer ← memcpy ctx.buffer used (data.take available)
      let (ctx,_) ← body machine {ctx with buffer := buffer} buffer.bytes 64
      md5UpdateRest machine ctx (data.drop available)
  else md5UpdateRest machine ctx data

def out (src : Word) : Bytes := [src.setWidth 8,(src >>> 8).setWidth 8,(src >>> 16).setWidth 8,(src >>> 24).setWidth 8]
def outWords (w : Words) : Bytes := out w.a ++ out w.b ++ out w.c ++ out w.d

def cleared : Ctx := ⟨0,0,⟨0,0,0,0⟩,⟨List.replicate 64 0,List.length_replicate⟩,Vector.replicate 16 0⟩

/- The closing 0x80, and a block of its own for it where no room for the length is left. -/
def md5Pad (machine : Machine) (ctx : Ctx) : Option (Ctx × Nat) := do
  let used := (ctx.lo &&& 0x3f).toNat
  let buffer ← memcpy ctx.buffer used [0x80]
  let used := used + 1
  let available := 64 - used
  if available < 8 then
    let buffer ← memset buffer used available
    let (ctx,_) ← body machine {ctx with buffer := buffer} buffer.bytes 64
    return (ctx,0)
  else return ({ctx with buffer := buffer},used)

def md5Final (machine : Machine) (ctx : Ctx) : Option (Bytes × Ctx) := do
  let (ctx,used) ← md5Pad machine ctx
  let available := 64 - used
  let buffer ← memset ctx.buffer used (available - 8)
  let lo := ctx.lo <<< 3
  let buffer ← memcpy buffer 56 (out lo)
  let buffer ← memcpy buffer 60 (out ctx.hi)
  let (ctx,_) ← body machine {ctx with lo := lo, buffer := buffer} buffer.bytes 64
  return (outWords ctx.words,cleared)

/- `getAccessMask2` hashes its pin so. -/
def md5Pin (machine : Machine) (context : Ctx) (pin : Bytes) : Option (Bytes × Ctx) := do
  let context ← md5Update machine (md5Init context) pin
  md5Final machine context

end AccessControl.Md5
