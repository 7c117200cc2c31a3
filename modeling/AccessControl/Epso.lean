import AccessControl.Numeral
import AccessControl.Traced

/-! The EPSO exchange with a Roger reader: a request goes out, then the answer is read until
the line stays quiet, checked, and its payload moved to the front of the caller's buffer. -/
namespace AccessControl.Epso
open BitMask Numeral Traced

def bufSize : Nat := 128

/- What the line has for the calls of `select` and `read` to come; a longer chunk than one
`read` asks for stays there with its rest. -/
inductive Arrival where
  | bytes (chunk : Bytes)
  | readError
  | quiet
  | selectError
  deriving DecidableEq, Repr

/- A frame written, an index of the buffer read or written, a byte looked at as a leading zero
with how much of the response is left there, and a write through a null pointer. -/
inductive Use where
  | write (frame : Bytes)
  | load (index : Int)
  | store (index count : Int)
  | skip (index : Nat) (rest : Int)
  | null
  deriving DecidableEq, Repr

/- A loop that has run out of fuel. -/
def stuck {α : Type} : Trace Use α := ⟨[],none⟩

/- The value of `select`: ready, timed out, or failed. -/
def select : List Arrival → Int × List Arrival
  | [] => (0,[])
  | .quiet :: rest => (0,rest)
  | .selectError :: rest => (-1,rest)
  | line => (1,line)

theorem selectBytes (chunk : Bytes) (line : List Arrival) : select (.bytes chunk :: line) = (1,.bytes chunk :: line) := rfl

def readLine (count : Nat) : List Arrival → Option Bytes × List Arrival
  | .bytes chunk :: rest =>
    if chunk.length ≤ count then (some chunk,rest)
    else (some (chunk.take count),.bytes (chunk.drop count) :: rest)
  | .readError :: rest => (none,rest)
  | line => (some [],line)

/- A null buffer is `none`; an index outside the buffer has no meaning. -/
def byteOf (buf : Option Bytes) (index : Int) : Option Byte :=
  buf.bind fun bytes => if 0 ≤ index then bytes[index.toNat]? else none

def load (buf : Option Bytes) (index : Int) : Trace Use Byte := use (.load index) (byteOf buf index)

def overlay (buf : Option Bytes) (index : Int) (chunk : Bytes) : Option (Option Bytes) :=
  if chunk = [] then some buf
  else buf.bind fun bytes =>
    if 0 ≤ index ∧ index + chunk.length ≤ bytes.length then
      some (some (bytes.take index.toNat ++ chunk ++ bytes.drop (index.toNat + chunk.length)))
    else none

def store (buf : Option Bytes) (index : Int) (chunk : Bytes) : Trace Use (Option Bytes) :=
  use (.store index chunk.length) (overlay buf index chunk)

def read (buf : Option Bytes) (index count : Int) (line : List Arrival) : Trace Use (Int × Option Bytes × List Arrival) :=
  match readLine count.toNat line with
  | (none,line) => return (-1,buf,line)
  | (some chunk,line) => do
    let buf ← store buf index chunk
    return (chunk.length,buf,line)

def epsoChecksum (buf : Option Bytes) (start : Nat) (len : Byte) : Trace Use Byte := do
  let sum ← forUp (fun i sum => do
    let b ← load buf (start + i)
    return sum ^^^ b) len.toNat 0 0x0
  return sum ||| 0x20

def SOH : Byte := 0x01
def STX : Byte := 0x02
def ETX : Byte := 0x03

/- `"_S%02d%02X_%c_"` and `"_S%02d%02X_%d_"`, which never reach their 15 bytes. -/
def epsoText (addr func data : Byte) : Bytes :=
  ascii ['_','S'] ++ decimal2 addr ++ hex2 func ++ ascii ['_'] ++ (if func = 0xff then [data] else decimal data.toNat) ++ ascii ['_']

def checksum (bytes : Bytes) : Byte := bytes.foldl (fun sum b => sum ^^^ b) 0x0 ||| 0x20

/- `written` is what `write` returns. -/
def epsoWrite (written : Int) (addr func data : Byte) : Bytes × Int :=
  let text := epsoText addr func data
  let pos := text.length
  let buf := ((text.set 0 SOH).set 6 STX).set (pos - 1) ETX
  let buf := buf ++ [checksum buf]
  (buf,if written ≠ pos + 1 then -11 else 0)

structure Receive where
  buf : Option Bytes
  pos : Int
  line : List Arrival

/- The loop that reads the rest of the packet. -/
def readRest (bufLen : BitVec 16) : Nat → Receive → Trace Use (Int × Receive)
  | 0, _ => stuck
  | fuel + 1, ⟨buf,pos,line⟩ =>
    let (ret,line) := select line
    if 0 < ret then do
      let (got,buf,line) ← read buf pos (bufLen.toNat - pos) line
      let pos := pos + got
      if pos < 0 then return (-22,⟨buf,pos,line⟩)
      else readRest bufLen fuel ⟨buf,pos,line⟩
    else return (0,⟨buf,pos,line⟩)

def receive (bufLen : BitVec 16) (fuel : Nat) (buf : Option Bytes) (line : List Arrival) : Trace Use (Int × Receive) :=
  let (ret,line) := select line
  if 0 < ret then do
    let (pos,buf,line) ← read buf 0 bufLen.toNat line
    if pos < 0 then return (-21,⟨buf,pos,line⟩)
    else readRest bufLen fuel ⟨buf,pos,line⟩
  else if ret = 0 then return (-20,⟨buf,0,line⟩)
  else return (-23,⟨buf,0,line⟩)

/- `while (buf[0] == 0) { buf++; buf_pos--; }`, with the offset of `buf`. -/
def skipZeros (buf : Option Bytes) : Nat → Nat → Int → Trace Use (Nat × Int)
  | 0, _, _ => stuck
  | fuel + 1, start, pos => do
    let b ← use (.skip start pos) (byteOf buf start)
    if b = 0 then skipZeros buf fuel (start + 1) (pos - 1)
    else return (start,pos)

/- The copy down to the front, with its two 8 bit counters. -/
def copyDown (bufLen : BitVec 16) (start : Nat) (pos : Int) : Nat → Byte → Byte → Option Bytes → Trace Use (Int × Option Bytes)
  | 0, _, _, _ => stuck
  | fuel + 1, i, j, buf =>
    if i.toNat < pos - 2 then
      let j := i - 7
      if j.toNat = bufLen.toNat then return (-32,buf)
      else do
        let b ← load buf (start + i.toNat)
        let buf ← store buf j.toNat [b]
        copyDown bufLen start pos fuel (i + 1) j buf
    else return (j.toNat + 1,buf)

/- The checks of the response and what is handed over of it. -/
def answer (bufLen : BitVec 16) (fuel : Nat) (buf : Option Bytes) (pos : Int) : Trace Use (Int × Option Bytes) := do
  let (start,pos) ← skipZeros buf fuel 0 pos
  if pos < 3 then return (-24,buf)
  else
    let checkSum ← epsoChecksum buf start (BitVec.ofInt 8 (pos - 1))
    let last ← load buf (start + (pos - 1))
    if last ≠ checkSum then return (-30,buf)
    else
      match buf with
      | none => return (0,none)
      | some bytes => copyDown bufLen start pos fuel 7 (BitVec.ofInt 8 (-40)) (some bytes)

/- The result of `epso_write` is overwritten by the first `select`. -/
def epsoWriteRead (fuel : Nat) (written : Int) (addr func data : Byte) (bufOut : Option Bytes) (bufLen : BitVec 16)
    (line : List Arrival) : Trace Use (Int × Option Bytes × List Arrival) := do
  note (.write (epsoWrite written addr func data).1)
  let (ret,s) ← receive bufLen fuel bufOut line
  if ret < 0 then return (ret,s.buf,s.line)
  else
    let (ret,buf) ← answer bufLen fuel s.buf s.pos
    return (ret,buf,s.line)

end AccessControl.Epso
