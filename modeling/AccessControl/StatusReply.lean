import AccessControl.DatagramBounds
import AccessControl.Numeral
import AccessControl.Separated

/-! The status of a door over the network. Asking for it changes nothing, and a client that cuts the reply
at its blanks reads off what the door holds. -/
namespace AccessControl.StatusReply
open BitMask DoorTable DoorController RemoteControl Separated

/- What is printed for a door. -/
def infoText (door : Bytes) (d : Door) : Bytes :=
  ascii ['I','N','F','O',' '] ++ door ++ ascii [':',' ','0','x'] ++ hex d.lastInput.toNat ++
    ascii [' '] ++ decimal d.alarmTimers ++ ascii [' '] ++ decimal d.doorLockTimer ++ ascii ['\n']

/- A client's way back: a signed number, a hexadecimal one, and the words of a reply. -/
def readSigned : Bytes → Int
  | 0x2d :: digits => -(Numeral.number 10 digits : Int)
  | digits => Numeral.number 10 digits

def readHex (digits : Bytes) : Nat := readDigits 16 digits

def readInfo (reply : Bytes) : Option (Bytes × Nat × Int × Int) :=
  match Separated.words isDelim reply with
  | [title,name,input,alarm,lock] =>
    if title = ascii ['I','N','F','O'] ∧ name.getLast? = some 0x3a ∧ input.take 2 = ascii ['0','x'] then
      some (name.dropLast,readHex (input.drop 2),readSigned alarm,readSigned lock)
    else none
  | _ => none

/- The digits of the formatted output are those of the numeral. -/
theorem digitsDecimal (k : Nat) : ascii (Nat.toDigits 10 k) = Numeral.decimal k := by
  have digit : ∀ d < 10, ascii [d.digitChar] = [Numeral.digitByte d] := by decide
  induction k using Nat.strong_induction_on with
  | h k ih =>
    rw [Nat.toDigits_eq_if (by decide),Numeral.decimalStep]
    split
    · rename_i small
      exact digit k small
    · rename_i more
      have split' : ascii (Nat.toDigits 10 (k / 10) ++ [(k % 10).digitChar]) = ascii (Nat.toDigits 10 (k / 10)) ++ ascii [(k % 10).digitChar] :=
        List.map_append
      rw [split',ih (k / 10) (by omega),digit (k % 10) (by omega)]

theorem decimalSigned (z : Int) : readSigned (decimal z) = z ∧ decimal z ≠ [] ∧ ∀ b ∈ decimal z, isDelim b = false := by
  have plain : ∀ b : Byte, Numeral.Digit b → isDelim b = false ∧ b ≠ 0x2d := by decide
  have digits := Numeral.decimalDigits z.natAbs
  have some' := Numeral.decimalNonempty z.natAbs
  rw [decimal,digitsDecimal]
  by_cases negative : z < 0
  · rw [if_pos negative,List.singleton_append]
    refine ⟨?_,List.cons_ne_nil _ _,?_⟩
    · change -(Numeral.number 10 (Numeral.decimal z.natAbs) : Int) = z
      rw [Numeral.numberDecimal]
      omega
    · intro b member
      rcases List.mem_cons.mp member with rfl | inside
      · decide
      · exact (plain b (digits b inside)).1
  · rw [if_neg negative,List.nil_append]
    refine ⟨?_,some',fun b inside => (plain b (digits b inside)).1⟩
    have value := Numeral.numberDecimal z.natAbs
    cases spelled : Numeral.decimal z.natAbs with
    | nil => exact absurd spelled some'
    | cons b rest =>
      rw [spelled] at value digits
      have first := (plain b (digits b List.mem_cons_self)).2
      have same : readSigned (b :: rest) = Numeral.number 10 (b :: rest) := by
        unfold readSigned
        split
        · rename_i head
          exact absurd (List.cons.inj head).1 first
        · rfl
      rw [same,value]
      omega

theorem hexByte (b : Byte) : readHex (hex b.toNat) = b.toNat ∧ ∀ c ∈ hex b.toNat, isDelim c = false := by
  have digit : ∀ d < 16, digitValue (BitVec.ofNat 8 d.digitChar.toNat) = d ∧ isDelim (BitVec.ofNat 8 d.digitChar.toNat) = false := by decide
  have bound := b.isLt
  rw [hex,Nat.toDigits_eq_if (by decide),readHex,readDigits]
  split
  · rename_i small
    obtain ⟨value,solid⟩ := digit _ small
    simp [ascii,value,small,solid]
  · have high : b.toNat / 16 < 16 := by omega
    have low : b.toNat % 16 < 16 := by omega
    obtain ⟨upper,solid⟩ := digit _ high
    obtain ⟨lower,solid'⟩ := digit _ low
    rw [Nat.toDigits_of_lt_base high]
    refine ⟨?_,by simp [ascii,solid,solid']⟩
    simp [ascii,upper,lower,high,low]
    omega

theorem infoReads {door : Bytes} (solid : ∀ b ∈ door, isDelim b = false) (d : Door) :
    readInfo (infoText door d) = some (door,d.lastInput.toNat,d.alarmTimers,d.doorLockTimer) := by
  obtain ⟨alarm,alarmSome,alarmSolid⟩ := decimalSigned d.alarmTimers
  obtain ⟨lock,lockSome,lockSolid⟩ := decimalSigned d.doorLockTimer
  obtain ⟨input,inputSolid⟩ := hexByte d.lastInput
  have title : ∀ b ∈ ascii ['I','N','F','O'], isDelim b = false := by decide
  have blank : isDelim 0x20 = true := rfl
  have shape : infoText door d = ascii ['I','N','F','O'] ++ 0x20 :: ((door ++ [0x3a]) ++ 0x20 :: ((0x30 :: 0x78 :: hex d.lastInput.toNat) ++
      0x20 :: (decimal d.alarmTimers ++ 0x20 :: (decimal d.doorLockTimer ++ 0x0a :: [])))) := by
    simp [infoText,ascii]
  have named : ∀ b ∈ door ++ [0x3a], isDelim b = false := by
    intro b member
    rcases List.mem_append.mp member with inside | colon
    · exact solid b inside
    · rw [List.mem_singleton.mp colon]
      rfl
  have hexed : ∀ b ∈ 0x30 :: 0x78 :: hex d.lastInput.toNat, isDelim b = false := by
    intro b member
    rcases List.mem_cons.mp member with rfl | later
    · rfl
    · rcases List.mem_cons.mp later with rfl | digits
      · rfl
      · exact inputSolid b digits
  have cut : Separated.words isDelim (infoText door d) = [ascii ['I','N','F','O'],door ++ [0x3a],0x30 :: 0x78 :: hex d.lastInput.toNat,
      decimal d.alarmTimers,decimal d.doorLockTimer] := by
    rw [shape,wordsWord (by decide) title blank,wordsWord (by simp) named blank,wordsWord (List.cons_ne_nil _ _) hexed blank,
      wordsWord alarmSome alarmSolid blank,wordsWord lockSome lockSolid rfl]
    rfl
  rw [readInfo,cut]
  dsimp only
  rw [if_pos ⟨rfl,List.getLast?_concat,rfl⟩,List.dropLast_concat,alarm,lock]
  exact congrArg (fun value => some (door,value,d.alarmTimers,d.doorLockTimer)) input

theorem strtokSolid {text word : Bytes} (found : (strtok text).1 = some word) : ∀ b ∈ word, isDelim b = false := by
  have token := DatagramBounds.strtokToken text
  generalize strtok text = out at found token
  cases token with
  | none => cases found
  | last _ solid =>
    cases found
    exact solid
  | more _ solid =>
    cases found
    exact solid

/- The second word of a datagram, as `strtok_r` cut it. -/
theorem doorSolid {datagram door : Bytes} (named : (words datagram).door = some door) : ∀ b ∈ door, isDelim b = false := strtokSolid named

/- Whoever asks for the status of a door is told its name and what the door holds, in a form that can be read
back, or ERR where that does not fit; and nothing but the log is different afterwards. -/
theorem statusRead {n : Nat} (cfg : Config n) (s : State n) (datagram : Bytes) (db : Sqlite) {door : Bytes} {argX : Option Bytes} {i : Fin n}
    (asked : words datagram = ⟨some wGet,some door,some wInfo,argX⟩) (known : getDoorByName cfg door = some i) :
    ∃ reply, checkNetwork cfg datagram db s =
      {s with log := .sendto reply :: .sendEvent (.remoteCtrl (some wGet) (some wInfo) argX) (some door) :: s.log} ∧
      if (infoText door (s.doors i)).length < bufSize then
        readInfo reply = some (door,(s.doors i).lastInput.toNat,(s.doors i).alarmTimers,(s.doors i).doorLockTimer)
      else reply = rErr := by
  have nonempty : datagram ≠ [] := by
    rintro rfl
    cases asked
  have named : (words datagram).door = some door := by rw [asked]
  have answered : checkNetwork cfg datagram db s =
      replyText (infoText door (s.doors i)) (s.emit (.sendEvent (.remoteCtrl (some wGet) (some wInfo) argX) (some door))) := by
    rw [checkNetwork,if_neg nonempty,asked]
    dsimp only
    rw [known]
    rfl
  rw [answered,replyText]
  by_cases fits : (infoText door (s.doors i)).length < bufSize
  · rw [if_pos fits]
    refine ⟨_,rfl,?_⟩
    rw [if_pos fits]
    exact infoReads (doorSolid named) (s.doors i)
  · rw [if_neg fits]
    refine ⟨_,rfl,?_⟩
    rw [if_neg fits]

def getInfoA : Bytes := ascii ['g','e','t',' ','A',' ','i','n','f','o']

theorem statusReadA : ∃ reply, checkNetwork (site 1 modeCard (fun _ => none)) getInfoA ⟨true,true⟩ (start (site 1 modeCard (fun _ => none)) []) =
    {start (site 1 modeCard (fun _ => none)) [] with log := .sendto reply :: .sendEvent (.remoteCtrl (some wGet) (some wInfo) none) (some [0x41]) :: []} ∧
    readInfo reply = some ([0x41],0x8f,0,1) :=
  statusRead (site 1 modeCard (fun _ => none)) (start (site 1 modeCard (fun _ => none)) []) getInfoA ⟨true,true⟩ (i := doorA) (by decide) (by decide)

end AccessControl.StatusReply
