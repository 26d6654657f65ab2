/-
Log lines read back.  A line about the latch ends in the value that the latch
holds from then on, and a line about the video ports gives an address, a value
and a width.  Main statement: the messages of these two events are read as what
they were made from, and no other message begins like them.
-/
import MegaDrive.Proofs.FlatBus
import MegaDrive.Proofs.NumeralText

namespace MegaDrive

/-- A value as a line shows it, with at least so many columns. -/
def showLong (columns : Nat) (value : Long) : String :=
  "0x" ++ Numeral.upperHex columns value.toNat

/-- A width as a line shows it. -/
def showWidth (width : Width) : String :=
  "(" ++ width.name ++ ")"

/-- Read 32 bits in hexadecimal behind their mark. -/
def shownLong? (text : List Char) : Option Long := do
  let digits ← "0x".toList.isPrefixOf? text
  let n ← Numeral.readBelow? 16 0x100000000 digits
  return BitVec.ofNat 32 n

def shownWidth? (text : List Char) : Option Width :=
  [Width.byte, .word, .long].find? fun width => (showWidth width).toList = text

/-- A line about the latch or about the video ports. -/
def IsRecord (line : String) : Prop :=
  "TMSS latch now ".toList <+: line.toList ∨ "VDP port ".toList <+: line.toList

/-- The value of the latch in a line that tells it. -/
def latchRecord? (line : String) : Option Long := do
  let value ← "TMSS latch now ".toList.isPrefixOf? line.toList
  shownLong? value

/-- The write that a line about the video ports tells of. -/
def portRecord? (line : String) : Option Write := do
  let record ← "VDP port ".toList.isPrefixOf? line.toList
  match record.splitOn ' ' with
  | [address, ['<', '-'], value, width] => do
      return ⟨← shownLong? address, ← shownWidth? width, ← shownLong? value⟩
  | _ => none

theorem shownLong?_showLong (columns : Nat) (value : Long) :
    shownLong? (showLong columns value).toList = some value := by
  have hdigits : "0x".toList.isPrefixOf? (showLong columns value).toList =
      some (Numeral.upperHex columns value.toNat).toList := by
    rw [List.isPrefixOf?_eq_some_iff_append_eq, showLong, String.toList_append]
  have hread : Numeral.readBelow? 16 0x100000000
      (Numeral.upperHex columns value.toNat).toList = some value.toNat := by
    rw [Numeral.readBelow?, Numeral.readDigits_upperHex value.isLt]
    rfl
  rw [shownLong?, hdigits, Option.bind_eq_bind, Option.bind_some, hread]
  exact congrArg some (BitVec.ofNat_toNat 32 value)

theorem blank_not_mem_showLong (columns : Nat) (value : Long) :
    ' ' ∉ (showLong columns value).toList := by
  simpa [showLong] using Numeral.blank_not_mem_upperHex columns value.toNat

theorem shownWidth?_showWidth (width : Width) :
    shownWidth? (showWidth width).toList = some width := by
  cases width <;> decide

theorem blank_not_mem_showWidth (width : Width) :
    ' ' ∉ (showWidth width).toList := by
  cases width <;> decide

namespace Event

/-- The value that the latch has taken. -/
def latched? : Event → Option Long
  | .latched value => some value
  | _ => none

/-- The write that the video ports have taken, with nothing in it beyond its
width. -/
def port? : Event → Option Write
  | .videoWrite address width value =>
      some ⟨address, width, width.truncate value⟩
  | _ => none

theorem latchRecord?_message (event : Event) :
    latchRecord? event.message = event.latched? := by
  unfold message
  cases event with
  | latched value =>
      have hline : "TMSS latch now ".toList.isPrefixOf?
          ("TMSS latch now 0x" ++ Numeral.upperHex 8 value.toNat).toList =
            some (showLong 8 value).toList := by
        simp [List.isPrefixOf?_eq_some_iff_append_eq, showLong]
      rw [latchRecord?, hline, Option.bind_eq_bind, Option.bind_some,
        shownLong?_showLong]
      rfl
  | cartridgeWrite | controllerRead | controllerWrite | videoWrite | call =>
      simp [latchRecord?, latched?, List.isPrefixOf?]

theorem portRecord?_message (event : Event) :
    portRecord? event.message = event.port? := by
  unfold message
  cases event with
  | videoWrite address width value =>
      let parts := [(showLong 6 address).toList, ['<', '-'],
        (showLong 1 (width.truncate value)).toList,
        (showWidth width).toList]
      have hline : "VDP port ".toList.isPrefixOf?
          ("VDP port " ++ address.text ++ " <- 0x" ++
            Numeral.upperHex 1 (width.truncate value).toNat ++
            " (" ++ width.name ++ ")").toList =
              some ([' '].intercalate parts) := by
        simp [List.isPrefixOf?_eq_some_iff_append_eq, parts, showLong,
          showWidth, Address.text]
      -- No part has a blank in it, so that the line falls apart at its blanks.
      have hparts : ([' '].intercalate parts).splitOn ' ' = parts := by
        apply List.splitOn_intercalate ' '
        · simp [parts, blank_not_mem_showLong, blank_not_mem_showWidth]
        · simp [parts]
      rw [portRecord?, hline, Option.bind_eq_bind, Option.bind_some, hparts]
      simp [parts, shownLong?_showLong, shownWidth?_showWidth, port?]
  | cartridgeWrite | controllerRead | controllerWrite | latched | call =>
      simp [portRecord?, port?, List.isPrefixOf?]

theorem isRecord_message_iff (event : Event) :
    IsRecord event.message ↔ event.latched? ≠ none ∨ event.port? ≠ none := by
  unfold message
  cases event <;> simp [IsRecord, latched?, port?]

theorem filterMap_latchRecord? (events : List Event) :
    (events.map message).filterMap latchRecord? =
      events.filterMap latched? := by
  rw [List.filterMap_map]
  exact congrArg (List.filterMap · events) (funext latchRecord?_message)

theorem filterMap_portRecord? (events : List Event) :
    (events.map message).filterMap portRecord? = events.filterMap port? := by
  rw [List.filterMap_map]
  exact congrArg (List.filterMap · events) (funext portRecord?_message)

end Event

end MegaDrive
