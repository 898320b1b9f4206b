import HtcLeo.ConSplitter.DeviceList

/-!
# The text output splitter

`ConSplitterDxe` presents the text output devices that are attached to it as one.
Its modes are those all of them have: `TextOutModeMap` is a table with a row for each
mode the splitter offers and a column for each device, and an entry is the number that
mode has on that device. `TextOutQueryData` holds the sizes of the modes of the first
device, by its own numbers.

There are two splitters, for standard output and for standard error. Where they share
a device, each is cut down to what the other offers as well.

All accesses to the tables are checked against their sizes. An allocation is granted or
refused by its number of bytes. What the graphics output of a device is for is left
out.
-/

namespace ConSplitter

open StatusCode

/-- `TEXT_OUT_SPLITTER_QUERY_DATA`. -/
structure TextOutQueryData where
  columns : ℕ
  rows : ℕ
  deriving DecidableEq

/-- The modes of a text output device. A query that fails may leave something in the
variables of the caller. -/
structure TextOutDevice where
  maxMode : ℕ
  queryMode : ℕ → Option TextOutQueryData
  leaves : ℕ → TextOutQueryData → TextOutQueryData

/-- What a device is asked for. -/
inductive TextOutRequest where
  | reset (extendedVerification : Bool)
  | outputString (string : List UInt16)
  | testString (string : List UInt16)
  | setMode (modeNumber : ℤ)
  | setAttribute (value : ℕ)
  | clearScreen
  | setCursorPosition (column row : ℕ)
  | enableCursor (visible : Bool)
  deriving DecidableEq

/-- What a call meets with: the allocations that are granted, by their bytes, what the
devices answer, and where their cursors are. -/
structure Surroundings (δ : Type) where
  granted : ℕ → Bool
  replies : δ → TextOutRequest → StatusCode
  cursor : δ → ℤ × ℤ

/-- `TEXT_OUT_SPLITTER_PRIVATE_DATA`, and what the devices have been asked for so far.
The counts of the lists are the sizes of their blocks. -/
structure TextOutSplitter (δ : Type) where
  maxMode : ℕ
  mode : ℤ
  attr : ℕ
  cursorColumn : ℤ
  cursorRow : ℤ
  cursorVisible : Bool
  currentNumberOfConsoles : ℕ
  textOutList : Block δ
  textOutQueryData : Block TextOutQueryData
  textOutModeMap : Option (Block ℤ)
  asked : List (δ × TextOutRequest)

section

variable {δ : Type}

/-! ## Growing -/

/-- `ConSplitterGrowMapTable`: a new table, of as many columns as the list of devices has
room for, and the old rows in it. -/
def growMapTable (granted : ℕ → Bool) (s : TextOutSplitter δ) :
    Option (StatusCode × TextOutSplitter δ) :=
  let newStepSize := s.textOutList.size
  let totalSize := newStepSize * s.textOutQueryData.size
  if granted (4 * totalSize) then
    let map : Block ℤ := ⟨totalSize, fun _ => -1⟩
    match s.textOutModeMap with
    | none => some (efiSuccess, { s with textOutModeMap := some map })
    | some old => do
      -- the old table is taken to be one unit narrower
      let oldStepSize := newStepSize - consoleSplitterAllocUnit
      let map ← (List.range s.maxMode).foldlM (fun map index =>
        map.copy (newStepSize * index) old (oldStepSize * index) s.currentNumberOfConsoles) map
      some (efiSuccess, { s with textOutModeMap := some map })
  else some (efiOutOfResources, s)

/-- The sizes grown until there is room for all modes of the first device. Every turn adds
room, so that there are no more turns than modes. -/
def growQueryData (granted : ℕ → Bool) (maxMode : ℕ) :
    ℕ → Block TextOutQueryData → StatusCode × Block TextOutQueryData
  | 0, queryData => (efiSuccess, queryData)
  | turns + 1, queryData =>
    if queryData.size < maxMode then
      let grown := growBuffer granted 8 queryData
      if efiError grown.1 then (efiOutOfResources, grown.2)
      else growQueryData granted maxMode turns grown.2
    else (efiSuccess, queryData)

/-- What a query of the first device leaves in the table of sizes. -/
def TextOutDevice.queried (device : TextOutDevice) (mode : ℕ) (old : TextOutQueryData) :
    TextOutQueryData :=
  match device.queryMode mode with
  | some size => size
  | none => if mode = 1 then ⟨0, 0⟩ else device.leaves mode old

/-- One mode of the first device: its size, and its own number as its entry. -/
def addModeTurn (device : TextOutDevice) (stepSize : ℕ)
    (tables : Block TextOutQueryData × Block ℤ) (mode : ℕ) :
    Option (Block TextOutQueryData × Block ℤ) := do
  let old ← tables.1.read mode
  let queryData ← tables.1.write mode (device.queried mode old)
  let map ← tables.2.write (stepSize * mode) mode
  some (queryData, map)

/-- `ConSplitterAddOutputMode`: all modes of the first device. -/
def addOutputMode (granted : ℕ → Bool) (device : TextOutDevice) (s : TextOutSplitter δ) :
    Option (StatusCode × TextOutSplitter δ) :=
  let grown := growQueryData granted device.maxMode device.maxMode s.textOutQueryData
  let s := { s with maxMode := device.maxMode, textOutQueryData := grown.2 }
  if efiError grown.1 then some (efiOutOfResources, s)
  else do
    let (status, s) ← growMapTable granted s
    if efiError status then some (efiOutOfResources, s)
    else do
      let map ← s.textOutModeMap
      let tables ← (List.range device.maxMode).foldlM (addModeTurn device s.textOutList.size)
        (s.textOutQueryData, map)
      some (efiSuccess, { s with textOutQueryData := tables.1, textOutModeMap := some tables.2 })

/-! ## Intersections -/

/-- Where `ConSplitterGetIntersection` stands: the table, the row the next mode that is kept
goes to, the number of modes left and the current mode. -/
structure Intersection where
  map : Block ℤ
  next : ℕ
  maxMode : ℕ
  mode : ℤ

/-- One row. The entry for the new device may be in the table that is being rewritten. -/
def getIntersectionTurn (newEntry : Block ℤ → ℕ → Option ℤ) (mapStepSize : ℕ) (currentMode : ℤ)
    (t : Intersection) (index : ℕ) : Option Intersection := do
  let entry ← newEntry t.map index
  if entry = -1 then
    -- the mode is not supported any more
    some { t with
      maxMode := t.maxMode - 1
      mode := if index = currentMode then -1
        else if index < currentMode then t.mode - 1 else t.mode }
  else if t.next = index then some { t with next := t.next + 1 }
  else do
    let map ← t.map.move (mapStepSize * t.next) (mapStepSize * index) mapStepSize
    some { t with map, next := t.next + 1 }

/-- `ConSplitterGetIntersection`: the modes from 2 on that have an entry. -/
def getIntersection (newEntry : Block ℤ → ℕ → Option ℤ) (mapStepSize maxMode : ℕ)
    (currentMode : ℤ) (map : Block ℤ) : Option Intersection :=
  (List.range' 2 (maxMode - 2)).foldlM (getIntersectionTurn newEntry mapStepSize currentMode)
    ⟨map, 2, maxMode, currentMode⟩

/-- The first of the given rows whose mode has the given size. -/
def findRow (queryData : Block TextOutQueryData) (map : Block ℤ) (stepSize : ℕ)
    (size : TextOutQueryData) : List ℕ → Option (Option ℕ)
  | [] => some none
  | index :: rest => do
    let queryMode ← map.read (stepSize * index)
    let found ← queryData.readInt queryMode
    if found = size then some (some index) else findRow queryData map stepSize size rest

/-- One mode of a further device: its number in the column `console` of the first row of
its size. -/
def syncTurn (device : TextOutDevice) (stepSize console currentMaxMode : ℕ)
    (tables : Block TextOutQueryData × Block ℤ) (mode : ℕ) :
    Option (Block TextOutQueryData × Block ℤ) :=
  match device.queryMode mode with
  | none =>
    if mode = 1 then do
      -- no device then has the mode
      let map ← tables.2.write (stepSize + console) mode
      let queryData ← tables.1.write mode ⟨0, 0⟩
      some (queryData, map)
    else some tables
  | some size => do
    match ← findRow tables.1 tables.2 stepSize size (List.range currentMaxMode) with
    | some index =>
      let map ← tables.2.write (stepSize * index + console) mode
      some (tables.1, map)
    | none => some tables

/-- `ConSplitterSyncOutputMode`: what a further device has of the modes there are. -/
def syncOutputMode (device : TextOutDevice) (s : TextOutSplitter δ) :
    Option (TextOutSplitter δ) := do
  let map ← s.textOutModeMap
  let stepSize := s.textOutList.size
  let console := s.currentNumberOfConsoles
  let tables ← (List.range device.maxMode).foldlM (syncTurn device stepSize console s.maxMode)
    (s.textOutQueryData, map)
  let left ← getIntersection (fun map index => map.read (stepSize * index + console)) stepSize
    s.maxMode s.mode tables.2
  some { s with
    textOutQueryData := tables.1
    textOutModeMap := some left.map
    maxMode := left.maxMode
    mode := left.mode }

/-! ## Requests to all devices -/

/-- Every device is asked in turn, and the last error they answer is returned. -/
def askEach (replies : δ → TextOutRequest → StatusCode) (request : ℕ → Option TextOutRequest)
    (s : TextOutSplitter δ) : Option (StatusCode × TextOutSplitter δ) := do
  let (returnStatus, asked) ← (List.range s.currentNumberOfConsoles).foldlM
    (fun (returnStatus, asked) index => do
      let textOut ← s.textOutList.read index
      let request ← request index
      let status := replies textOut request
      some (if efiError status then status else returnStatus, asked ++ [(textOut, request)]))
    (efiSuccess, s.asked)
  some (returnStatus, { s with asked })

/-- `TextOutSetMode`: the parameters of the mode. -/
def TextOutSplitter.textOutSetMode (s : TextOutSplitter δ) (modeNumber : ℕ) : TextOutSplitter δ :=
  { s with mode := modeNumber, cursorColumn := 0, cursorRow := 0, cursorVisible := true }

/-- `ConSplitterTextOutQueryMode`. Where the number is not valid the variables of the caller
are left alone. -/
def textOutQueryMode (s : TextOutSplitter δ) (modeNumber : ℕ) :
    Option (StatusCode × Option TextOutQueryData) :=
  if 0x7FFFFFFF < modeNumber ∨ s.maxMode ≤ modeNumber then some (efiUnsupported, none)
  else do
    let size ← match s.textOutModeMap with
      | some map => do
        let currentMode ← map.read (s.textOutList.size * modeNumber)
        s.textOutQueryData.readInt currentMode
      | none => s.textOutQueryData.read modeNumber
    some (if size.columns = 0 ∧ size.rows = 0 then efiUnsupported else efiSuccess, some size)

/-- `ConSplitterTextOutClearScreen`. -/
def textOutClearScreen (around : Surroundings δ) (s : TextOutSplitter δ) :
    Option (StatusCode × TextOutSplitter δ) := do
  let (status, s) ← askEach around.replies (fun _ => some .clearScreen) s
  some (status, { s with cursorColumn := 0, cursorRow := 0, cursorVisible := true })

/-- `ConSplitterTextOutSetMode`: every device is asked for its own number of the mode. -/
def textOutSetMode (around : Surroundings δ) (modeNumber : ℕ) (s : TextOutSplitter δ) :
    Option (StatusCode × TextOutSplitter δ) :=
  if 0x7FFFFFFF < modeNumber ∨ s.maxMode ≤ modeNumber then some (efiUnsupported, s)
  else if s.mode = modeNumber then textOutClearScreen around s
  else do
    let (status, s) ← askEach around.replies (fun index => do
      let map ← s.textOutModeMap
      let number ← map.read (s.textOutList.size * modeNumber + index)
      some (.setMode number)) s
    some (status, s.textOutSetMode modeNumber)

/-- `ConSplitterTextOutSetAttribute`. -/
def textOutSetAttribute (around : Surroundings δ) (value : ℕ) (s : TextOutSplitter δ) :
    Option (StatusCode × TextOutSplitter δ) :=
  if value ||| 0x7F ≠ 0x7F then some (efiUnsupported, s)
  else do
    let (status, s) ← askEach around.replies (fun _ => some (.setAttribute value)) s
    some (status, { s with attr := value })

/-- `ConSplitterTextOutReset`. -/
def textOutReset (around : Surroundings δ) (extendedVerification : Bool) (s : TextOutSplitter δ) :
    Option (StatusCode × TextOutSplitter δ) := do
  let (status, s) ← askEach around.replies (fun _ => some (.reset extendedVerification)) s
  let (_, s) ← textOutSetAttribute around (s.attr &&& 0x0F) s
  some (status, s.textOutSetMode 0)

/-- `ConSplitterTextOutEnableCursor`. -/
def textOutEnableCursor (around : Surroundings δ) (visible : Bool) (s : TextOutSplitter δ) :
    Option (StatusCode × TextOutSplitter δ) := do
  let (status, s) ← askEach around.replies (fun _ => some (.enableCursor visible)) s
  some (status, { s with cursorVisible := visible })

/-- `ConSplitterTextOutTestString`. -/
def textOutTestString (around : Surroundings δ) (string : List UInt16) (s : TextOutSplitter δ) :
    Option (StatusCode × TextOutSplitter δ) :=
  askEach around.replies (fun _ => some (.testString string)) s

/-- The number of the current mode on the first device. -/
def TextOutSplitter.currentMode (s : TextOutSplitter δ) : Option ℤ :=
  match s.textOutModeMap with
  | some map => map.readInt (s.textOutList.size * s.mode)
  | none => some s.mode

/-- `ConSplitterTextOutSetCursorPosition`. -/
def textOutSetCursorPosition (around : Surroundings δ) (column row : ℕ) (s : TextOutSplitter δ) :
    Option (StatusCode × TextOutSplitter δ) := do
  let currentMode ← s.currentMode
  let size ← s.textOutQueryData.readInt currentMode
  if size.columns ≤ column ∨ size.rows ≤ row then some (efiUnsupported, s)
  else do
    let (status, s) ← askEach around.replies (fun _ => some (.setCursorPosition column row)) s
    some (status, { s with cursorColumn := column, cursorRow := row })

/-- What a character does to the cursor where there is no device. -/
def virtualCursor (size : TextOutQueryData) (cursor : ℤ × ℤ) (char : UInt16) : ℤ × ℤ :=
  let (column, row) := cursor
  if char = 0x0008 then
    if column = 0 ∧ 0 < row then (size.columns - 1, row - 1)
    else if 0 < column then (column - 1, row)
    else (column, row)
  else if char = 0x000A then if row < size.rows - 1 then (column, row + 1) else (column, row)
  else if char = 0x000D then (0, row)
  else if column < size.columns - 1 then (column + 1, row)
  else (0, if row < size.rows - 1 then row + 1 else row)

/-- `ConSplitterTextOutOutputString`. The cursor is that of the first device; without one, the
splitter keeps its own. -/
def textOutOutputString (around : Surroundings δ) (string : List UInt16) (s : TextOutSplitter δ) :
    Option (StatusCode × TextOutSplitter δ) := do
  let (_, s) ← textOutSetAttribute around s.attr s
  let (status, s) ← askEach around.replies (fun _ => some (.outputString string)) s
  if 0 < s.currentNumberOfConsoles then do
    let first ← s.textOutList.read 0
    some (status, { s with
      cursorColumn := (around.cursor first).1, cursorRow := (around.cursor first).2 })
  else do
    let (_, size) ← textOutQueryMode s (s.mode % 0x100000000).toNat
    let size ← size
    let cursor := string.foldl (virtualCursor size) (s.cursorColumn, s.cursorRow)
    some (status, { s with cursorColumn := cursor.1, cursorRow := cursor.2 })

/-! ## The two splitters -/

end

/-- Which of the two splitters. -/
inductive Which where
  | conOut
  | stdErr
  deriving DecidableEq

/-- The attribute a splitter sets when a device has come. -/
def Which.startAttribute : Which → ℕ
  | .conOut => 0x07  -- light grey on black
  | .stdErr => 0x05  -- magenta on black

/-- `mConOut` and `mStdErr`, with the size `PcdConOutColumn` and `PcdConOutRow` ask for. -/
structure Splitters (δ : Type) where
  mConOut : TextOutSplitter δ
  mStdErr : TextOutSplitter δ
  pcdConOutColumn : ℕ
  pcdConOutRow : ℕ

namespace Splitters

variable {δ : Type}

def get (sys : Splitters δ) : Which → TextOutSplitter δ
  | .conOut => sys.mConOut
  | .stdErr => sys.mStdErr

def set (sys : Splitters δ) (which : Which) (s : TextOutSplitter δ) : Splitters δ :=
  match which with
  | .conOut => { sys with mConOut := s }
  | .stdErr => { sys with mStdErr := s }

end Splitters

section

variable {δ : Type} [DecidableEq δ]

/-- The devices of standard error compared with one of standard output, from the pointer on. -/
def findSame (textOut : δ) (stdErrList : Block δ) : ℕ → ℕ → Option (Bool × ℕ)
  | 0, pointer => some (false, pointer)
  | left + 1, pointer => do
    let other ← stdErrList.read pointer
    if textOut = other then some (true, pointer)
    else findSame textOut stdErrList left (pointer + 1)

/-- Whether a device is found in both lists. The pointer into the second list is not set back
to its start when the first list goes on. -/
def foundTheSameTextOut (conOutList stdErrList : Block δ) (stdErrNumOfConsoles : ℕ) :
    List ℕ → ℕ → Option Bool
  | [], _ => some false
  | index :: rest, pointer => do
    let textOut ← conOutList.read index
    let (found, pointer) ← findSame textOut stdErrList stdErrNumOfConsoles pointer
    if found then some true
    else foundTheSameTextOut conOutList stdErrList stdErrNumOfConsoles rest pointer

omit [DecidableEq δ] in
/-- One mode of standard output: it is marked, with the first mode of standard error that has
its size. -/
def markTurn (conOut stdErr : TextOutSplitter δ) (conOutModeMap stdErrModeMap : Block ℤ)
    (tables : Block ℤ × Block ℤ) (mode : ℕ) : Option (Block ℤ × Block ℤ) := do
  let conOutMode ← conOutModeMap.read (conOut.textOutList.size * mode)
  let size ← conOut.textOutQueryData.readInt conOutMode
  match ← findRow stdErr.textOutQueryData stdErrModeMap stdErr.textOutList.size size
      (List.range stdErr.maxMode) with
  | some index =>
    let conOutMapTable ← tables.1.write mode 1
    let stdErrMapTable ← tables.2.write index 1
    some (conOutMapTable, stdErrMapTable)
  | none => some tables

omit [DecidableEq δ] in
/-- A splitter cut down to the modes that are marked. It is put in mode 0 when its own is not
among them. -/
def cutDown (around : Surroundings δ) (mapTable : Block ℤ) (s : TextOutSplitter δ) :
    Option (TextOutSplitter δ) := do
  let map ← s.textOutModeMap
  let left ← getIntersection (fun _ index => mapTable.read index) s.textOutList.size s.maxMode
    s.mode map
  let s := { s with textOutModeMap := some left.map, maxMode := left.maxMode, mode := left.mode }
  if s.mode < 0 then do
    let (_, s) ← textOutSetMode around 0 s
    some s
  else some s

/-- `ConSplitterGetIntersectionBetweenConOutAndStrErr`. -/
def getIntersectionBetweenConOutAndStrErr (around : Surroundings δ) (sys : Splitters δ) :
    Option (StatusCode × Splitters δ) := do
  let conOut := sys.mConOut
  let stdErr := sys.mStdErr
  let found ← foundTheSameTextOut conOut.textOutList stdErr.textOutList
    stdErr.currentNumberOfConsoles (List.range conOut.currentNumberOfConsoles) 0
  if ¬ found then some (efiSuccess, sys)
  else if ¬ (around.granted (4 * conOut.maxMode) ∧ around.granted (4 * stdErr.maxMode)) then
    some (efiOutOfResources, sys)
  else do
    let conOutModeMap ← conOut.textOutModeMap
    let stdErrModeMap ← stdErr.textOutModeMap
    let tables ← (List.range conOut.maxMode).foldlM
      (markTurn conOut stdErr conOutModeMap stdErrModeMap)
      (⟨conOut.maxMode, fun _ => -1⟩, ⟨stdErr.maxMode, fun _ => -1⟩)
    let conOut ← cutDown around tables.1 conOut
    let stdErr ← cutDown around tables.2 stdErr
    some (efiSuccess, { sys with mConOut := conOut, mStdErr := stdErr })

omit [DecidableEq δ] in
/-- The modes `ConsplitterSetConsoleOutMode` has found so far. -/
structure ModeChoice where
  maxColumn : ℕ
  maxRow : ℕ
  preferMode : ℕ
  baseMode : ℕ

omit [DecidableEq δ] in
/-- One mode: the size that is asked for, or the largest so far, and the base mode. -/
def chooseTurn (column row : ℕ) (s : TextOutSplitter δ) (choice : ModeChoice) (mode : ℕ) :
    Option ModeChoice := do
  let (status, size) ← textOutQueryMode s mode
  if efiError status then some choice
  else do
    let size ← size
    let choice :=
      if column ≠ 0 ∧ row ≠ 0 then
        if size.columns = column ∧ size.rows = row then { choice with preferMode := mode }
        else choice
      else if choice.maxColumn ≤ size.columns ∧ choice.maxRow ≤ size.rows then
        { choice with maxColumn := size.columns, maxRow := size.rows, preferMode := mode }
      else choice
    some (if size.columns = 40 ∧ size.rows = 12 then { choice with baseMode := mode } else choice)

omit [DecidableEq δ] in
/-- `ConsplitterSetConsoleOutMode`. When the mode that is preferred is refused, the base mode is
set, and asked for from then on. -/
def setConsoleOutMode (around : Surroundings δ) (which : Which) (sys : Splitters δ) :
    Option (Splitters δ) := do
  let s := sys.get which
  let choice ← (List.range s.maxMode).foldlM (chooseTurn sys.pcdConOutColumn sys.pcdConOutRow s)
    ⟨0, 0, 0xFF, 0xFF⟩
  let (status, s) ← textOutSetMode around choice.preferMode s
  if efiError status then do
    let (_, s) ← textOutSetMode around choice.baseMode s
    some { sys.set which s with pcdConOutColumn := 40, pcdConOutRow := 12 }
  else some (sys.set which s)

/-! ## Devices that come and go -/

omit [DecidableEq δ] in
/-- The list of devices, and the table with it, grown until there is room for one more. -/
def growTextOutList (granted : ℕ → Bool) :
    ℕ → TextOutSplitter δ → Option (StatusCode × TextOutSplitter δ)
  | 0, s => some (efiSuccess, s)
  | turns + 1, s =>
    if s.textOutList.size ≤ s.currentNumberOfConsoles then
      let grown := growBuffer granted 12 s.textOutList
      let s := { s with textOutList := grown.2 }
      if efiError grown.1 then some (efiOutOfResources, s)
      else do
        let (status, s) ← growMapTable granted s
        if efiError status then some (efiOutOfResources, s)
        else growTextOutList granted turns s
    else some (efiSuccess, s)

omit [DecidableEq δ] in
/-- The modes of a device that comes: all that the first one has, and those a further one has
in common with the others. Whether there was memory for the tables is not looked at. -/
def addModes (granted : ℕ → Bool) (device : TextOutDevice) (s : TextOutSplitter δ) :
    Option (TextOutSplitter δ) :=
  if s.currentNumberOfConsoles = 0 then (addOutputMode granted device s).map Prod.snd
  else syncOutputMode device s

/-- `ConSplitterTextOutAddDevice`, after which the devices are put in one mode. -/
def textOutAddDevice (device : δ → TextOutDevice) (around : Surroundings δ) (which : Which)
    (textOut : δ) (sys : Splitters δ) : Option (Splitters δ) := do
  let s := sys.get which
  let (status, s) ← growTextOutList around.granted (s.currentNumberOfConsoles + 1) s
  if efiError status then some (sys.set which s)
  else do
    let textOutList ← s.textOutList.write s.currentNumberOfConsoles textOut
    let s ← addModes around.granted (device textOut) { s with textOutList }
    let s := { s with currentNumberOfConsoles := s.currentNumberOfConsoles + 1 }
    let (_, sys) ← getIntersectionBetweenConOutAndStrErr around (sys.set which s)
    setConsoleOutMode around which sys

omit [DecidableEq δ] in
/-- The devices after the first, one by one. -/
def syncAll (device : δ → TextOutDevice) : List ℕ → TextOutSplitter δ → Option (TextOutSplitter δ)
  | [], s => some s
  | index :: rest, s => do
    let textOut ← s.textOutList.read index
    let s ← syncOutputMode (device textOut) s
    syncAll device rest { s with currentNumberOfConsoles := s.currentNumberOfConsoles + 1 }

omit [DecidableEq δ] in
/-- The modes made anew from those of the first devices of the list. -/
def remakeModes (device : δ → TextOutDevice) (granted : ℕ → Bool) (left : ℕ)
    (s : TextOutSplitter δ) : Option (StatusCode × TextOutSplitter δ) := do
  let s := { s with
    textOutQueryData := { s.textOutQueryData with
      cell := fun i => if i < s.textOutQueryData.size then ⟨0, 0⟩ else s.textOutQueryData.cell i }
    textOutModeMap := none }
  let first ← s.textOutList.read 0
  let (status, s) ← addOutputMode granted (device first) s
  let s ← syncAll device (List.range' 1 (left - 1)) { s with currentNumberOfConsoles := 1 }
  some (status, s)

/-- `ConSplitterTextOutDeleteDevice`: the modes are made anew from what is left of the list. -/
def textOutDeleteDevice (device : δ → TextOutDevice) (around : Surroundings δ) (which : Which)
    (textOut : δ) (sys : Splitters δ) : Option (StatusCode × Splitters δ) := do
  let s := sys.get which
  match ← findDevice textOut s.textOutList (List.range s.currentNumberOfConsoles) with
  | none => some (efiNotFound, sys)
  | some index => do
    let textOutList ← s.textOutList.move index (index + 1) (s.currentNumberOfConsoles - 1 - index)
    let left := s.currentNumberOfConsoles - 1
    let s := { s with textOutList }
    if left = 0 then do
      let queryData ← s.textOutQueryData.write 0 ⟨40, 12⟩
      let s := { s with currentNumberOfConsoles := 0, maxMode := 1, textOutQueryData := queryData }
      some (efiSuccess, sys.set which (s.textOutSetMode 0))
    else do
      let (status, s) ← remakeModes device around.granted left s
      let (_, sys) ← getIntersectionBetweenConOutAndStrErr around (sys.set which s)
      some (status, sys)

omit [DecidableEq δ] in
/-- `ConSplitterTextOutConstructor`, from what lies in memory: a splitter without devices. -/
def textOutConstructor (list : ℕ → δ) (queryData : ℕ → TextOutQueryData) : TextOutSplitter δ :=
  TextOutSplitter.textOutSetMode
    { maxMode := 1
      mode := 0xFF
      attr := 0
      cursorColumn := 0
      cursorRow := 0
      cursorVisible := false
      currentNumberOfConsoles := 0
      textOutList := ⟨consoleSplitterAllocUnit, list⟩
      textOutQueryData := ⟨consoleSplitterAllocUnit, Function.update queryData 0 ⟨40, 12⟩⟩
      textOutModeMap := none
      asked := [] } 0

/-- The end of `ConSplitterConOutDriverBindingStart` and of
`ConSplitterStdErrDriverBindingStart`. -/
def driverBindingStart (device : δ → TextOutDevice) (around : Surroundings δ) (which : Which)
    (textOut : δ) (sys : Splitters δ) : Option (Splitters δ) := do
  let sys := sys.set which { sys.get which with mode := 0xFF }
  let sys ← textOutAddDevice device around which textOut sys
  let (_, s) ← textOutSetAttribute around which.startAttribute (sys.get which)
  some (sys.set which s)

end

end ConSplitter
