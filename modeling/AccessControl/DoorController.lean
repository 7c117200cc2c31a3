import AccessControl.Gpio

/-! The door controller: driving outputs under the administrative and airlock
masks, watching the inputs, collecting credentials and the pass of the main loop. -/
namespace AccessControl.DoorController
open BitMask DoorTable Gpio

def doorOpenTime : Int := 13
def twoFactorTime : Int := 23
def alarmResendTimer : Int := 60
def alarmMask : Byte := 0x08
def maxCardLen : Nat := 16
def maxPinLen : Nat := 16

def modeCard : Byte := 0x01
def modePin : Byte := 0x02
def modeCardOrPin : Byte := 0x10
def modeCardAndPin : Byte := 0x20
def modeCardAndPinAlways : Byte := 0x30
def modeTwoCards : Byte := 0x40

variable {n : Nat}

def getDoorByName (cfg : Config n) (name : Bytes) : Option (Fin n) :=
  (List.finRange n).find? (fun i => (cfg i).doorName == name)

def sendEvent (cfg : Config n) (i : Fin n) (event : Event) (s : State n) : State n :=
  s.emit (.sendEvent event (some (cfg i).doorName))

def doorSignal (cfg : Config n) (i : Fin n) (signal : Signal) (s : State n) : State n :=
  let s := if ((cfg i).reader .A).present then s.emit (.readerSignal signal ⟨i,.A⟩) else s
  if ((cfg i).reader .B).present then s.emit (.readerSignal signal ⟨i,.B⟩) else s

def signalDoorStatus (cfg : Config n) (i : Fin n) (s : State n) : State n :=
  if (s.doors i).admDisableMask ≠ 0 ∨ (s.doors i).airLockMask ≠ 0 then doorSignal cfg i .blocked s
  else doorSignal cfg i .unblocked s

def resetDoorAuth (r : ReaderId n) (s : State n) : State n :=
  (s.emit (.resetDoorAuth r)).setReader r
    (fun reader => {reader with cardLen := 0, pinLen := 0, twoFactorTimer := 0})

def airLockOnPartner (cfg : Config n) (i : Fin n) (mask : Mask) (s : State n) : State n :=
  match (cfg i).airLockPartnerLocal with
  | none => s
  | some partner =>
    let s :=
      if mask = 0 then
        if (s.doors i).doorLockTimer ≤ 0 ∧ (s.doors i).lastInput &&& diIsDoorClose = diIsDoorClose then
          s.update partner (fun d => {d with airLockMask := 0})
        else s
      else s.update partner (fun d => {d with airLockMask := (cfg partner).maskFull &&& mask})
    signalDoorStatus cfg i s

def unlockMask (cfg : Config n) (i : Fin n) (mask : Mask) (d : Door) : Mask :=
  (mask &&& (cfg i).maskFull &&& ~~~d.airLockMask &&& ~~~d.admDisableMask) <<< (cfg i).maskOffset.toNat

def lockMask (cfg : Config n) (i : Fin n) (mask : Mask) (d : Door) : Mask :=
  (mask &&& (cfg i).maskFull &&& ~~~d.admDisableMask) <<< (cfg i).maskOffset.toNat

/- The second component is what the call returns. -/
def unlockDoor (cfg : Config n) (i : Fin n) (mask : Mask) (s : State n) : State n × Mask :=
  let result := unlockMask cfg i mask (s.doors i)
  let s := s.emit (.unlockDoor i mask result s.doors)
  if result ≠ 0 then
    let s := airLockOnPartner cfg i (-1) s
    let s := s.emit (.setDoorState .doUnlock result)
    let s := sendEvent cfg i (.doorUnlock result) s
    let s := s.update i (fun d => {d with doorLockTimer := doorOpenTime})
    (doorSignal cfg i .doorOpen s,result)
  else (s,result)

def lockDoor (cfg : Config n) (i : Fin n) (mask : Mask) (s : State n) : State n × Mask :=
  let result := lockMask cfg i mask (s.doors i)
  if result ≠ 0 then
    let s := s.emit (.setDoorState .doLock result)
    let s := airLockOnPartner cfg i 0 s
    let s := sendEvent cfg i (.doorLock result) s
    (doorSignal cfg i .doorLock s,result)
  else (s,result)

/- The blocks of the loop body of `check_inputs`, in its order. -/
def inputDiff (d : Door) (input : Byte) : Byte :=
  if flag diStateIsDiff d.lastInput then d.lastInput else input ^^^ d.lastInput

def inputManualOpen (cfg : Config n) (i : Fin n) (diff input : Byte) (s : State n) : State n :=
  if flag diManualOpen diff ∧ flag diManualOpen input then
    (unlockDoor cfg i 1 (sendEvent cfg i .manualOpen s)).1
  else s

def inputEmergency (cfg : Config n) (i : Fin n) (diff input : Byte) (s : State n) : State n :=
  if flag diIsEmergencyOpen diff then
    if flag diIsEmergencyOpen input then airLockOnPartner cfg i (-1) (sendEvent cfg i .doorEmergencyActive s)
    else sendEvent cfg i .doorEmergencyInactive s
  else s

def inputDoorClose (cfg : Config n) (i : Fin n) (diff input : Byte) (s : State n) : State n :=
  if flag diIsDoorClose diff then
    if flag diIsDoorClose input then airLockOnPartner cfg i 0 (sendEvent cfg i .doorIsClose s)
    else airLockOnPartner cfg i (-1) (sendEvent cfg i .doorIsOpen s)
  else s

def inputDoorLock (cfg : Config n) (i : Fin n) (diff input : Byte) (s : State n) : State n :=
  if flag diIsDoorLock diff then
    if flag diIsDoorLock input then sendEvent cfg i .doorIsLock s else sendEvent cfg i .doorIsUnlock s
  else s

/- After the button: what the other lines of a changed reading do, and its storing. -/
def inputSense (cfg : Config n) (i : Fin n) (diff input : Byte) (s : State n) : State n :=
  let s := inputEmergency cfg i diff input s
  let s := inputDoorClose cfg i diff input s
  let s := inputDoorLock cfg i diff input s
  s.update i (fun d => {d with lastInput := input})

def inputAlarm (cfg : Config n) (i : Fin n) (input : Byte) (s : State n) : State n :=
  let alarm := ((input ||| alarmMask) &&& (diIsEmergencyOpen ||| diIsDoorClose ||| diIsDoorLock)) ^^^
    (diIsDoorClose ||| diIsDoorLock)
  if alarm ≠ 0 then
    if (s.doors i).alarmTimers = 0 then s.update i (fun d => {d with alarmTimers := alarmResendTimer})
    else
      let s := s.update i (fun d => {d with alarmTimers := d.alarmTimers - 1})
      if (s.doors i).alarmTimers = 0 then
        let s := sendEvent cfg i (.doorOpenAlarm alarm) s
        s.update i (fun d => {d with alarmTimers := alarmResendTimer})
      else s
  else s.update i (fun d => {d with alarmTimers := 0})

def checkDoorInputs (cfg : Config n) (i : Fin n) (input : Byte) (s : State n) : State n :=
  let diff := inputDiff (s.doors i) input
  let s := if diff ≠ 0 then inputSense cfg i diff input (inputManualOpen cfg i diff input s) else s
  inputAlarm cfg i input s

/- `inputVal` is the uninitialised array on the stack that the driver fills. -/
def checkInputs (cfg : Config n) (reading : Reading) (inputVal : Fin n → Byte) (s : State n) : State n :=
  let inputVal := getInputState reading inputVal (~~~(~~~0#32 <<< n))
  (List.finRange n).foldl (fun s i => checkDoorInputs cfg i (inputVal i) s) s

def invalidUsage (r : ReaderId n) (s : State n) : State n := s.emit (.readerSignal .errUsage r)
def authError (r : ReaderId n) (s : State n) : State n := s.emit (.readerSignal .errAuth r)
def invalidData (r : ReaderId n) (s : State n) : State n := s.emit (.readerSignal .errComm r)

def twoFactorTimer (r : ReaderId n) (s : State n) : State n :=
  let s := s.emit (.twoFactorTimer r)
  if 0 < (s.doorReader r).twoFactorTimer then
    let s := s.setReader r (fun reader => {reader with twoFactorTimer := reader.twoFactorTimer - 1})
    if (s.doorReader r).twoFactorTimer ≤ 0 then
      invalidUsage r ((resetDoorAuth r s).emit (.clearReaderData r))
    else s.emit (.readerSignal .pinQuiet r)
  else s

def memcpy (target source : Bytes) : Bytes := source ++ target.drop source.length

/- Storing what was delivered; an error is an early return of `process_user_info`. -/
def storeCredential (cfg : Config n) (r : ReaderId n) (cb : Callback) (s : State n) :
    Except (State n) (State n) :=
  let reader := s.doorReader r
  match cb.dataMode with
  | .dataOk =>
    match cb.dataType with
    | .dataIsPin =>
      if cb.data.length > maxPinLen then .error (invalidData r (resetDoorAuth r s))
      else if reader.pinLen ≠ 0 then .error (invalidUsage r (resetDoorAuth r s))
      else .ok (s.setReader r (fun reader =>
        {reader with pin := (memcpy reader.pin cb.data).set cb.data.length 0, pinLen := cb.data.length}))
    | .dataIsCard =>
      if cb.data.length > maxCardLen then .error (invalidData r (resetDoorAuth r s))
      else if reader.cardLen ≠ 0 then
        if ((cfg r.door).reader r.side).accessMode ≠ modeTwoCards ∨ reader.card2Len ≠ 0 then
          .error (invalidUsage r (resetDoorAuth r s))
        else .ok (s.setReader r (fun reader =>
          {reader with card2 := memcpy reader.card2 cb.data, card2Len := cb.data.length}))
      else .ok (s.setReader r (fun reader =>
        {reader with card := memcpy reader.card cb.data, cardLen := cb.data.length}))
  | .dataOutOfBuf => .error (invalidData r (resetDoorAuth r s))
  | .dataTimeout => .error (invalidUsage r (resetDoorAuth r s))

/- One question to the database: the events it sends, then its mask. -/
def ask (database : Database) (r : ReaderId n) (query : Query) (s : State n) : State n × Mask :=
  let answer := database query
  let s := answer.events.foldl (fun s e => s.emit (.sendEvent e.1 e.2)) s
  (s.emit (.access r query answer.mask),answer.mask)

def getAccessMask (cfg : Config n) (database : Database) (r : ReaderId n) (mode : Byte) (s : State n) :
    State n × Mask :=
  let reader := s.doorReader r
  ask database r (.getAccessMask2 (reader.pin.take reader.pinLen) (reader.card.take reader.cardLen) mode
    (cfg r.door).doorName) s

def checkKeyAccess (database : Database) (r : ReaderId n) (s : State n) : State n × Mask :=
  let reader := s.doorReader r
  ask database r (.checkKeyAccess2 (reader.card.take reader.cardLen) (reader.card2.take reader.card2Len)) s

def startTwoFactor (r : ReaderId n) (s : State n) : State n :=
  if (s.doorReader r).twoFactorTimer = 0 then
    (s.emit (.readerSignal .pin r)).setReader r (fun reader => {reader with twoFactorTimer := twoFactorTime})
  else s

def stopTwoFactor (r : ReaderId n) (s : State n) : State n :=
  s.setReader r (fun reader => {reader with twoFactorTimer := 0})

/- The switch over the access mode: the state after it and `auth_mask`. -/
def authMask (cfg : Config n) (database : Database) (r : ReaderId n) (s : State n) : State n × Mask :=
  let mode := ((cfg r.door).reader r.side).accessMode
  let reader := s.doorReader r
  if mode = modeCardOrPin then
    if reader.cardLen ≠ 0 then getAccessMask cfg database r modeCard s
    else if reader.pinLen ≠ 0 then getAccessMask cfg database r modePin s
    else (s,0)
  else if mode = modeCard then
    if reader.cardLen ≠ 0 then getAccessMask cfg database r mode s else (s,0)
  else if mode = modePin then
    if reader.pinLen ≠ 0 then getAccessMask cfg database r mode s else (s,0)
  else if mode = modeCardAndPin ∨ mode = modeCardAndPinAlways then
    if reader.cardLen ≠ 0 ∧ reader.pinLen ≠ 0 then
      let (s,mask) := getAccessMask cfg database r modeCardAndPinAlways s
      (stopTwoFactor r s,mask)
    else if reader.cardLen ≠ 0 ∧ mode = modeCardAndPin then
      let (s,mask) := getAccessMask cfg database r modeCardAndPin s
      if mask ≠ 0 then (stopTwoFactor r s,mask) else (startTwoFactor r s,mask)
    else (startTwoFactor r s,0)
  else if mode = modeTwoCards then
    if reader.cardLen ≠ 0 ∧ reader.card2Len ≠ 0 then
      let (s,mask) := checkKeyAccess database r s
      ((stopTwoFactor r s).setReader r (fun reader => {reader with card2Len := 0}),mask)
    else (startTwoFactor r s,0)
  else (s,0)

/- What `process_user_info` does once the credential is stored. -/
def authorise (cfg : Config n) (database : Database) (r : ReaderId n) (s : State n) : State n :=
  let (s,mask) := authMask cfg database r s
  if mask ≠ 0 then
    resetDoorAuth r (unlockDoor cfg r.door mask s).1
  else if (s.doorReader r).twoFactorTimer = 0 then resetDoorAuth r (authError r s)
  else s

def processUserInfo (cfg : Config n) (r : ReaderId n) (cb : Callback) (s : State n) : State n :=
  let s := s.emit (.processUserInfo r cb)
  if ((cfg r.door).reader r.side).present then
    match storeCredential cfg r cb s with
    | .error s => s
    | .ok s => authorise cfg cb.database r s
  else invalidData r s

/- What one pass of the main loop meets: the callbacks of each reader's driver,
the reading of the GPIO lines and the garbage on the stack under them. -/
structure Pass (n : Nat) where
  readerData : ReaderId n → List Callback
  reading : Reading
  inputVal : Fin n → Byte

def lockTimer (cfg : Config n) (i : Fin n) (s : State n) : State n :=
  if (s.doors i).doorLockTimer ≠ 0 then
    let s := s.update i (fun d => {d with doorLockTimer := d.doorLockTimer - 1})
    if (s.doors i).doorLockTimer ≤ 0 then (lockDoor cfg i (cfg i).maskFull s).1 else s
  else s

def getReaderData (cfg : Config n) (pass : Pass n) (r : ReaderId n) (s : State n) : State n :=
  if ((cfg r.door).reader r.side).present then
    (pass.readerData r).foldl (fun s cb => processUserInfo cfg r cb s) s
  else s

def doorTurn (cfg : Config n) (pass : Pass n) (s : State n) (i : Fin n) : State n :=
  let s := lockTimer cfg i s
  let s := twoFactorTimer ⟨i,.B⟩ (twoFactorTimer ⟨i,.A⟩ s)
  getReaderData cfg pass ⟨i,.B⟩ (getReaderData cfg pass ⟨i,.A⟩ s)

def doorTurns (cfg : Config n) (pass : Pass n) (s : State n) : State n :=
  (List.finRange n).foldl (doorTurn cfg pass) s

def mainLoop (cfg : Config n) (pass : Pass n) (s : State n) : State n :=
  checkInputs cfg pass.reading pass.inputVal (doorTurns cfg pass s)

end AccessControl.DoorController
