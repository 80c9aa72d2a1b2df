/-
HostRules/Regex/Reader.lean

Reading a regular expression.  The reader goes over the text once, with the flags in force,
what it has read of the group it is in, and the groups around that one.  Reading ahead is
done by readers of small parts; the main loop then passes over the characters that they
took, so that it is a recursion on the text itself.  A text that is nested too deeply, or
whose pattern takes too much space, is refused in the end.
-/
import HostRules.Regex.Class
import HostRules.Regex.Space

namespace HostRules.Regex

/-- A pattern as it is written: the pattern, and how deep its parts are nested. -/
structure Part where
  pattern : Pattern
  depth : Nat := 0
deriving DecidableEq

/-- The depth of the deepest of some parts. -/
def deepest (parts : List Part) : Nat := parts.foldr (fun p d => max p.depth d) 0

/-- What has been read of a group: its finished branches and the parts of the current one, of
both the last first.  Flag settings are parts too, and cannot be repeated. -/
structure Branches where
  finished : List Part := []
  parts : List (Option Part) := []
deriving DecidableEq

namespace Branches

/-- Adds a part to the current branch. -/
def push (b : Branches) (p : Part) : Branches := { b with parts := some p :: b.parts }

/-- The current branch as one part; two or more parts are a level of their own. -/
def current (b : Branches) : Part :=
  let parts := (b.parts.filterMap id).reverse
  ⟨.concat (parts.map (·.pattern)),
    if b.parts.length < 2 then deepest parts else deepest parts + 1⟩

/-- All branches as one part; two or more branches are a level of their own. -/
def part (b : Branches) : Part :=
  match b.finished with
  | [] => b.current
  | _ =>
    let branches := (b.current :: b.finished).reverse
    ⟨.alternation (branches.map (·.pattern)), deepest branches + 1⟩

/-- Begins a further branch. -/
def split (b : Branches) : Branches := ⟨b.current :: b.finished, []⟩

/-- Repeats the last part. -/
def repeatLast (b : Branches) (min : Nat) (max : Option Nat) (lazy : Bool) :
    Except Flaw Branches :=
  match b.parts with
  | some p :: parts =>
    .ok { b with parts := some ⟨p.pattern.times min max lazy, p.depth + 1⟩ :: parts }
  | _ => .error .nothingToRepeat

end Branches

/-- A group that is being read: the flags to go back to behind it, its number if it captures,
and what stands before it in the group around. -/
structure OpenGroup where
  flags : Flags
  number : Option Nat
  before : Branches
deriving DecidableEq

/-- The state of reading: the flags in force, the names of groups seen, how many groups
capture so far, the innermost group, and those around it. -/
structure Reader where
  flags : Flags := {}
  names : List (List Char) := []
  captures : Nat := 0
  group : Branches := {}
  outer : List OpenGroup := []

namespace Reader

/-- Adds a part to the innermost group. -/
def push (r : Reader) (p : Pattern) (depth : Nat := 0) : Reader :=
  { r with group := r.group.push ⟨p, depth⟩ }

/-- Opens a group with the flags `flags` in force. -/
def openGroup (r : Reader) (flags : Flags) (number : Option Nat) : Reader :=
  { r with flags, group := {}, outer := ⟨r.flags, number, r.group⟩ :: r.outer }

/-- Opens a group that captures. -/
def openCapture (r : Reader) : Reader :=
  { r.openGroup r.flags (some (r.captures + 1)) with captures := r.captures + 1 }

/-- Acts on the head of a group. -/
def enter (r : Reader) : GroupHead → Except Flaw Reader
  | .capture none => .ok r.openCapture
  | .capture (some name) =>
    if r.names.contains name then .error .repeatedGroupName
    else .ok { r.openCapture with names := name :: r.names }
  | .flagged flags => .ok (r.openGroup flags none)
  | .setting flags => .ok { r with flags, group := { r.group with parts := none :: r.group.parts } }

/-- Closes the innermost group. -/
def closeGroup (r : Reader) : Except Flaw Reader :=
  match r.outer with
  | [] => .error .unopenedGroup
  | g :: outer =>
    let inside := r.group.part
    let pattern := match g.number with
      | some number => .group number inside.pattern
      | none => inside.pattern
    .ok { r with flags := g.flags, group := g.before.push ⟨pattern, inside.depth + 1⟩, outer }

/-- Repeats the last part of the innermost group, and returns the characters left.  A question
mark directly behind a repetition changes whether it is lazy. -/
def repeatLast (r : Reader) (min : Nat) (max : Option Nat) (cs : List Char) :
    Except Flaw (Reader × List Char) := do
  let (turned, rest) := match cs with
    | '?' :: rest => (true, rest)
    | rest => (false, rest)
  let group ← r.group.repeatLast min max (r.flags.lazy != turned)
  return ({ r with group }, rest)

/-- The pattern of a single character. -/
def literal (r : Reader) (c : Char) : Pattern := .ofSet (r.flags.fold (.single c))

/-- The pattern of the dot. -/
def dot (r : Reader) : Except Flaw Pattern :=
  let breaks := if r.flags.dotAll then [] else if r.flags.crlf then ['\r', '\n'] else ['\n']
  (r.flags.compl (.ofChars breaks)).map .ofSet

/-- The pattern of an escape. -/
def escape (r : Reader) : Escape → Pattern
  | .literal c => r.literal c
  | .set s => .ofSet s
  | .look a => .look a

/-- The assertion of `^`. -/
def caret (r : Reader) : Assertion :=
  if r.flags.multiLine then .lineStart r.flags.crlf else .textStart

/-- The assertion of `$`. -/
def dollar (r : Reader) : Assertion :=
  if r.flags.multiLine then .lineEnd r.flags.crlf else .textEnd

/-- Reads on from the character `c`. -/
def step (r : Reader) (c : Char) (cs : List Char) : Except Flaw (Reader × List Char) := do
  if r.flags.extended && (Unicode.isWhiteSpace c || c == '#') then
    return (r, r.flags.skip (c :: cs))
  match c with
  | '(' =>
    let (head, rest) ← readGroupHead r.flags cs
    return (← r.enter head, rest)
  | ')' => return (← r.closeGroup, cs)
  | '|' => return ({ r with group := r.group.split }, cs)
  | '[' =>
    let (s, rest) ← readSet r.flags cs
    return (r.push (.ofSet s.set) s.depth, rest)
  | '?' => r.repeatLast 0 (some 1) cs
  | '*' => r.repeatLast 0 none cs
  | '+' => r.repeatLast 1 none cs
  | '\x7b' =>
    let (min, max, rest) ← readCount r.flags cs
    r.repeatLast min max rest
  | '\\' =>
    let (e, rest) ← readEscape r.flags cs
    return (r.push (r.escape e), rest)
  | '.' => return (r.push (← r.dot), cs)
  | '^' => return (r.push (.look r.caret), cs)
  | '$' => return (r.push (.look r.dollar), cs)
  | c => return (r.push (r.literal c), cs)

/-- Reads to the end of the text; the first `skipped` characters have been read. -/
def readFrom (r : Reader) : (skipped : Nat) → List Char → Except Flaw Reader
  | _, [] => .ok r
  | k + 1, _ :: cs => r.readFrom k cs
  | 0, c :: cs =>
    match r.step c cs with
    | .error e => .error e
    | .ok (r, rest) => r.readFrom (cs.length - rest.length) cs

end Reader

/-- How deep the parts of a pattern may be nested. -/
def maxDepth : Nat := 250

/-- The pattern that a text writes. -/
def readPattern (text : List Char) : Except Flaw Pattern := do
  let r ← Reader.readFrom {} 0 text
  if !r.outer.isEmpty then .error .unclosedGroup
  else
    let whole := r.group.part
    if maxDepth < whole.depth then .error .tooDeep
    else if !whole.pattern.fits then .error .tooLarge
    else .ok whole.pattern

end HostRules.Regex
