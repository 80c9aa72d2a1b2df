/-
HostRules/Proofs/JsonText.lean

Reading JSON back.  A reader goes over a text character by character.  What it has read of the
lists and objects that are still open stands on a stack; its mode says where it is in the
innermost one.  It takes the JSON that has no numbers, nulls and pairs of surrogates, however it
is laid out: blanks may stand wherever the format allows them, and a string may escape any
character.

Design.  What the reader does with the text of a value does not depend on what stands around it:
from where a value is expected, `Reads` leads over that text to the place behind the value
(`Reads.write`).  The rest is a walk over the writer, one case for each kind of value.

Main result: the text of a value is read as that value, whatever the layout (`Json.read?_render`).
-/
import HostRules.Json
import HostRules.Regex.Escape
import Mathlib.Data.List.Basic

namespace HostRules

namespace Json

/-! ### The reader -/

/-- Where a string goes that is being read: it is a value, or the name of the next field of an
object with some fields before it. -/
inductive Role where
  | value
  | name (fields : List (String × Json))

/-- A list or an object in which a value is being read, with what stands before that value. -/
inductive Frame where
  | list (items : List Json)
  | field (fields : List (String × Json)) (name : String)

/-- What comes next. -/
inductive Mode where
  /-- A value, or the end of a list without items. -/
  | value
  /-- The name of a field, or the end of an object without fields. -/
  | name (fields : List (String × Json))
  /-- The colon behind a name. -/
  | colon (fields : List (String × Json)) (name : String)
  /-- A comma or the end of a list. -/
  | item (items : List Json)
  /-- A comma or the end of an object. -/
  | field (fields : List (String × Json))
  /-- The rest of a string. -/
  | text (role : Role) (chars : List Char)
  /-- What follows the backslash in a string. -/
  | escape (role : Role) (chars : List Char)
  /-- Hexadecimal digits of the number of a character. -/
  | code (role : Role) (chars : List Char) (missing number : Nat)
  /-- The rest of a flag. -/
  | flag (b : Bool) (missing : List Char)
  /-- Nothing. -/
  | done (v : Json)

/-- Whether blanks are passed over before what comes next. -/
def Mode.passesBlanks : Mode → Bool
  | .text .. | .escape .. | .code .. | .flag .. => false
  | _ => true

/-- A reader inside some open lists and objects, the innermost one first. -/
structure Reader where
  mode : Mode
  frames : List Frame

/-- The blanks of JSON. -/
def isBlank (c : Char) : Bool := c == ' ' || c == '\t' || c == '\n' || c == '\r'

/-- The character that is written with a backslash and another one. -/
def unescape? : Char → Option Char
  | '"' => some '"'
  | '\\' => some '\\'
  | '/' => some '/'
  | 'b' => some '\x08'
  | 'f' => some '\x0c'
  | 'n' => some '\n'
  | 'r' => some '\r'
  | 't' => some '\t'
  | _ => none

namespace Reader

/-- The reader behind a value. -/
def put (v : Json) : List Frame → Reader
  | [] => ⟨.done v, []⟩
  | .list items :: frames => ⟨.item (items ++ [v]), frames⟩
  | .field fields name :: frames => ⟨.field (fields ++ [(name, v)]), frames⟩

/-- The reader behind a string. -/
def putText (chars : List Char) (frames : List Frame) : Role → Reader
  | .value => put (.text (String.ofList chars)) frames
  | .name fields => ⟨.colon fields (String.ofList chars), frames⟩

/-- The reader behind the first character of a value, or behind a list without items. -/
def begin? (frames : List Frame) : Char → Option Reader
  | '"' => some ⟨.text .value [], frames⟩
  | '[' => some ⟨.value, .list [] :: frames⟩
  | '\x7b' => some ⟨.name [], frames⟩
  | 't' => some ⟨.flag true ['r', 'u', 'e'], frames⟩
  | 'f' => some ⟨.flag false ['a', 'l', 's', 'e'], frames⟩
  | ']' =>
    match frames with
    | .list [] :: frames => some (put (.list []) frames)
    | _ => none
  | _ => none

/-- The reader behind a character of a string, or behind the string. -/
def goOn? (role : Role) (chars : List Char) (frames : List Frame) (c : Char) : Option Reader :=
  if c = '"' then some (putText chars frames role)
  else if c = '\\' then some ⟨.escape role chars, frames⟩
  else if c.toNat < 32 then none
  else some ⟨.text role (chars ++ [c]), frames⟩

/-- The reader behind a digit of the number of a character. -/
def digit (role : Role) (chars : List Char) (missing number : Nat) (frames : List Frame) :
    Option Reader :=
  if missing ≠ 0 then some ⟨.code role chars missing number, frames⟩
  else if number.isValidChar then some ⟨.text role (chars ++ [Char.ofNat number]), frames⟩
  else none

/-- Reads a character that is not passed over. -/
def take? : Reader → Char → Option Reader
  | ⟨.value, frames⟩, c => begin? frames c
  | ⟨.name fields, frames⟩, '"' => some ⟨.text (.name fields) [], frames⟩
  | ⟨.name fields, frames⟩, '\x7d' =>
    if fields.isEmpty then some (put (.object []) frames) else none
  | ⟨.colon fields name, frames⟩, ':' => some ⟨.value, .field fields name :: frames⟩
  | ⟨.item items, frames⟩, ',' => some ⟨.value, .list items :: frames⟩
  | ⟨.item items, frames⟩, ']' => some (put (.list items) frames)
  | ⟨.field fields, frames⟩, ',' => some ⟨.name fields, frames⟩
  | ⟨.field fields, frames⟩, '\x7d' => some (put (.object fields) frames)
  | ⟨.text role chars, frames⟩, c => goOn? role chars frames c
  | ⟨.escape role chars, frames⟩, 'u' => some ⟨.code role chars 4 0, frames⟩
  | ⟨.escape role chars, frames⟩, c =>
    (unescape? c).map fun d => ⟨.text role (chars ++ [d]), frames⟩
  | ⟨.code role chars missing number, frames⟩, c =>
    (Regex.hexDigit? c).bind fun d => digit role chars (missing - 1) (number * 16 + d) frames
  | ⟨.flag b [last], frames⟩, c => if c = last then some (put (.flag b) frames) else none
  | ⟨.flag b (next :: more), frames⟩, c => if c = next then some ⟨.flag b more, frames⟩ else none
  | _, _ => none

/-- Reads one character. -/
def step (r : Reader) (c : Char) : Option Reader :=
  if r.mode.passesBlanks && isBlank c then some r else r.take? c

/-- Reads some characters. -/
def run (r : Reader) (cs : List Char) : Option Reader := cs.foldlM step r

/-- The value that a reader has come to the end of. -/
def result? (r : Reader) : Option Json :=
  match r.mode with
  | .done v => some v
  | _ => none

end Reader

/-- The value that a text writes. -/
def read? (text : String) : Option Json :=
  (Reader.run ⟨.value, []⟩ text.toList).bind Reader.result?

/-! ### Runs of the reader -/

/-- A reader gets from one state to another over a text. -/
def Reads (r : Reader) (cs : List Char) (r' : Reader) : Prop := r.run cs = some r'

variable {r r' r'' : Reader} {c : Char} {cs ds : List Char} {role : Role} {chars : List Char}
  {frames : List Frame} {l : Layout}

namespace Reads

theorem nil (r : Reader) : Reads r [] r := rfl

theorem cons (hc : r.step c = some r') (h : Reads r' cs r'') : Reads r (c :: cs) r'' := by
  show List.foldlM Reader.step r (c :: cs) = some r''
  rw [List.foldlM_cons, hc]
  exact h

theorem append (h : Reads r cs r') (h' : Reads r' ds r'') : Reads r (cs ++ ds) r'' := by
  show List.foldlM Reader.step r (cs ++ ds) = some r''
  rw [List.foldlM_append]
  have hrun : List.foldlM Reader.step r cs = some r' := h
  rw [hrun]
  exact h'

theorem blanks (hr : r.mode.passesBlanks = true) (hcs : cs.all isBlank = true) :
    Reads r cs r := by
  induction cs with
  | nil => exact nil r
  | cons c cs ih =>
    obtain ⟨hc, hcs⟩ := (Bool.and_eq_true _ _).mp (List.all_cons ▸ hcs)
    refine cons ?_ (ih hcs)
    unfold Reader.step
    rw [hr, hc]
    rfl

end Reads

/-! ### Strings -/

theorem hexDigit?_digitChar : ∀ d < 16, Regex.hexDigit? (Nat.digitChar d) = some d := by decide

namespace Reader

theorem step_code {d missing number : Nat} (hd : d < 16) :
    step ⟨.code role chars missing number, frames⟩ (Nat.digitChar d) =
      digit role chars (missing - 1) (number * 16 + d) frames := by
  show (Regex.hexDigit? (Nat.digitChar d)).bind _ = _
  rw [hexDigit?_digitChar d hd]
  rfl

theorem step_text (hquote : c ≠ '"') (hslash : c ≠ '\\') (hc : ¬ c.toNat < 32) :
    step ⟨.text role chars, frames⟩ c = some ⟨.text role (chars ++ [c]), frames⟩ := by
  show goOn? role chars frames c = _
  rw [goOn?, if_neg hquote, if_neg hslash, if_neg hc]

end Reader

namespace Reads

/-- A character of a string, by its number. -/
theorem codePoint (hc : c.toNat < 32) :
    Reads ⟨.text role chars, frames⟩
      ['\\', 'u', '0', '0', Nat.digitChar (c.toNat / 16), Nat.digitChar (c.toNat % 16)]
      ⟨.text role (chars ++ [c]), frames⟩ := by
  -- below 32 two digits are enough, so the first two of the four are zeros
  have hhead : Reads ⟨.text role chars, frames⟩ ['\\', 'u', '0', '0']
      ⟨.code role chars 2 0, frames⟩ := rfl
  have hhigh : Reader.step ⟨.code role chars 2 0, frames⟩ (Nat.digitChar (c.toNat / 16)) =
      some ⟨.code role chars 1 (c.toNat / 16), frames⟩ := by
    rw [Reader.step_code (by omega), Nat.zero_mul, Nat.zero_add]
    rfl
  have hlow : Reader.step ⟨.code role chars 1 (c.toNat / 16), frames⟩
      (Nat.digitChar (c.toNat % 16)) = some ⟨.text role (chars ++ [c]), frames⟩ := by
    have hvalid : c.toNat.isValidChar := c.valid
    rw [Reader.step_code (by omega), Nat.div_add_mod', Reader.digit, if_neg (by simp),
      if_pos hvalid, Char.ofNat_toNat]
  exact hhead.append (cons hhigh (cons hlow (nil _)))

/-- A character of a string, as it is written. -/
theorem escapeChar (c : Char) :
    Reads ⟨.text role chars, frames⟩ (Json.escapeChar c) ⟨.text role (chars ++ [c]), frames⟩ := by
  unfold Json.escapeChar
  split
  -- the characters that have an escape of their own, then those by number and those as they are
  · rfl
  · rfl
  · rfl
  · rfl
  · rfl
  · rfl
  · rfl
  · next hquote hslash _ _ _ _ _ =>
    split
    · next hc => exact codePoint hc
    · next hc => exact cons (Reader.step_text hquote hslash hc) (nil _)

/-- The rest of a string. -/
theorem string (cs : List Char) :
    Reads ⟨.text role chars, frames⟩ (cs.flatMap Json.escapeChar ++ ['"'])
      (Reader.putText (chars ++ cs) frames role) := by
  -- each character joins those that have been read before the next one comes
  induction cs generalizing chars with
  | nil =>
    rw [List.append_nil]
    rfl
  | cons c cs ih =>
    rw [List.flatMap_cons, List.append_assoc, List.append_cons chars]
    exact (escapeChar c).append ih

/-- A whole string. -/
theorem writeText (s : String) (hquote : r.step '"' = some ⟨.text role [], frames⟩) :
    Reads r (Json.writeText s) (Reader.putText s.toList frames role) :=
  cons hquote (string s.toList)

theorem writeText_value (s : String) :
    Reads ⟨.value, frames⟩ (Json.writeText s) (Reader.put (.text s) frames) := by
  have h : Reads ⟨.value, frames⟩ (Json.writeText s) (Reader.putText s.toList frames .value) :=
    writeText s rfl
  rwa [Reader.putText, String.ofList_toList] at h

theorem writeText_name (fields : List (String × Json)) (s : String) :
    Reads ⟨.name fields, frames⟩ (Json.writeText s) ⟨.colon fields s, frames⟩ := by
  have h : Reads ⟨.name fields, frames⟩ (Json.writeText s)
    (Reader.putText s.toList frames (.name fields)) := writeText s rfl
  rwa [Reader.putText, String.ofList_toList] at h

end Reads

/-! ### Values in a layout -/

/-- A layout that sets things apart with blanks only. -/
structure Layout.Blank (l : Layout) : Prop where
  lineStart : ∀ depth, (l.lineStart depth).all isBlank = true
  colon : ∃ before behind, l.colon = before ++ ':' :: behind ∧
    before.all isBlank = true ∧ behind.all isBlank = true

theorem blank_compact : compact.Blank where
  lineStart _ := rfl
  colon := ⟨[], [], rfl, rfl, rfl⟩

theorem blank_indented : indented.Blank where
  lineStart depth := by
    show ('\n' :: spaces (2 * depth)).all isBlank = true
    simp [spaces, isBlank]
  colon := ⟨[], [' '], rfl, rfl, rfl⟩

namespace Reads

/-- What stands before an item. -/
theorem lineStart (hl : l.Blank) (depth : Nat) (hr : r.mode.passesBlanks = true) :
    Reads r (l.lineStart depth) r :=
  blanks hr (hl.lineStart depth)

/-- What stands between a name and its value. -/
theorem colon (hl : l.Blank) (fields : List (String × Json)) (name : String) :
    Reads ⟨.colon fields name, frames⟩ l.colon ⟨.value, .field fields name :: frames⟩ := by
  obtain ⟨before, behind, hcolon, hbefore, hbehind⟩ := hl.colon
  rw [hcolon]
  exact (blanks rfl hbefore).append (cons rfl (blanks rfl hbehind))

/-- A field of an object, if its value is read. -/
theorem field (hl : l.Blank) (fields : List (String × Json)) (name : String) {v : Json}
    (hv : Reads ⟨.value, .field fields name :: frames⟩ cs
      (Reader.put v (.field fields name :: frames))) :
    Reads ⟨.name fields, frames⟩ (Json.writeText name ++ l.colon ++ cs)
      ⟨.field (fields ++ [(name, v)]), frames⟩ :=
  ((writeText_name fields name).append (colon hl fields name)).append hv

mutual

/-- **A value is read back**, wherever it stands. -/
theorem write (hl : l.Blank) : ∀ (v : Json) (depth : Nat) (frames : List Frame),
    Reads ⟨.value, frames⟩ (v.write l depth) (Reader.put v frames)
  | .text s, _, _ => writeText_value s
  | .flag true, _, _ => rfl
  | .flag false, _, _ => rfl
  | .list [], _, _ => rfl
  | .list (item :: more), depth, frames => by
    have hopen : Reader.step ⟨.value, frames⟩ '[' = some ⟨.value, .list [] :: frames⟩ := rfl
    have hitem := write hl item (depth + 1) (.list [] :: frames)
    have hmore := writeItems hl more (depth + 1) [item] frames
    have hclose : Reads ⟨.item (item :: more), frames⟩ [']']
      (Reader.put (.list (item :: more)) frames) := rfl
    unfold Json.write
    refine cons hopen ?_
    -- the first item, the others and the bracket, each on a line of its own
    exact ((((lineStart hl (depth + 1) rfl).append hitem).append hmore).append
      (lineStart hl depth rfl)).append hclose
  | .object [], _, _ => rfl
  | .object ((name, v) :: more), depth, frames => by
    have hopen : Reader.step ⟨.value, frames⟩ '\x7b' = some ⟨.name [], frames⟩ := rfl
    have hfield := field hl [] name (write hl v (depth + 1) (.field [] name :: frames))
    have hmore := writeFields hl more (depth + 1) [(name, v)] frames
    have hclose : Reads ⟨.field ((name, v) :: more), frames⟩ ['\x7d']
      (Reader.put (.object ((name, v) :: more)) frames) := rfl
    unfold Json.write
    refine cons hopen ?_
    rw [List.append_assoc (l.lineStart (depth + 1)), List.append_assoc (l.lineStart (depth + 1))]
    exact ((((lineStart hl (depth + 1) rfl).append hfield).append hmore).append
      (lineStart hl depth rfl)).append hclose

/-- The items behind the first one. -/
theorem writeItems (hl : l.Blank) : ∀ (more : List Json) (depth : Nat) (items : List Json)
    (frames : List Frame),
    Reads ⟨.item items, frames⟩ (Json.writeItems l depth more) ⟨.item (items ++ more), frames⟩
  | [], _, items, _ => by
    rw [List.append_nil]
    exact nil _
  | item :: more, depth, items, frames => by
    have hcomma : Reader.step ⟨.item items, frames⟩ ',' =
      some ⟨.value, .list items :: frames⟩ := rfl
    have hitem := write hl item depth (.list items :: frames)
    have hmore := writeItems hl more depth (items ++ [item]) frames
    unfold Json.writeItems
    rw [List.append_cons items]
    exact cons hcomma (((lineStart hl depth rfl).append hitem).append hmore)

/-- The fields behind the first one. -/
theorem writeFields (hl : l.Blank) : ∀ (more : List (String × Json)) (depth : Nat)
    (fields : List (String × Json)) (frames : List Frame),
    Reads ⟨.field fields, frames⟩ (Json.writeFields l depth more)
      ⟨.field (fields ++ more), frames⟩
  | [], _, fields, _ => by
    rw [List.append_nil]
    exact nil _
  | (name, v) :: more, depth, fields, frames => by
    have hcomma : Reader.step ⟨.field fields, frames⟩ ',' = some ⟨.name fields, frames⟩ := rfl
    have hfield := field hl fields name (write hl v depth (.field fields name :: frames))
    have hmore := writeFields hl more depth (fields ++ [(name, v)]) frames
    unfold Json.writeFields
    rw [List.append_cons fields, List.append_assoc (l.lineStart depth),
      List.append_assoc (l.lineStart depth)]
    exact cons hcomma (((lineStart hl depth rfl).append hfield).append hmore)

end

end Reads

/-- The text of a value writes that value, in whatever layout, also with blanks behind it. -/
theorem read?_render (hl : l.Blank) (v : Json) (hcs : cs.all isBlank = true) :
    read? (v.render l ++ String.ofList cs) = some v := by
  have hwrite := Reads.write hl v 0 []
  -- behind the outermost value only blanks may stand, and they are passed over
  have hend : Reads ⟨.done v, []⟩ cs ⟨.done v, []⟩ := Reads.blanks rfl hcs
  have hall : Reader.run ⟨.value, []⟩ (v.write l 0 ++ cs) = some ⟨.done v, []⟩ :=
    hwrite.append hend
  unfold read? render
  rw [String.toList_append, String.toList_ofList, String.toList_ofList, hall]
  rfl

/-- Another layout, with other escapes. -/
example : read? " [\t\"\\u00e9\\/\" , \x7b \"a\":true\x7d]" =
    some (.list [.text "é/", .object [("a", .flag true)]]) := rfl

end Json

end HostRules
