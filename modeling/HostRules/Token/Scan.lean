/-
HostRules/Token/Scan.lean

Reading the tokens of a text.  A lexeme is a stretch of characters with the token it stands
for, or an unterminated string; `Lexeme.read?` finds the one at the head of a text from the
characters alone, and `Cursor.step` skips the spaces before it and adds the places.

`Lexeme.read?_raw` says that a lexeme is never empty and that nothing is lost between it and
what follows; hence every step leaves less to read (`Cursor.step_shorter`), and reading
token by token ends.
-/
import HostRules.Fault
import HostRules.Text.Cursor
import HostRules.Token

namespace HostRules

/-! ### Quoted strings -/

/-- What follows an opening quote: whether the string is closed, its content, the characters
read, closing quote included, and the characters left. -/
structure QuotedBody where
  closed : Bool
  content : List Char
  raw : List Char
  rest : List Char
deriving DecidableEq

/-- Reads up to the closing quote.  A backslash is dropped and the character behind it kept,
whatever it is; a line break ends the reading, and is itself read only when no backslash
stands before it. -/
def readQuoted (quote : Char) : List Char → QuotedBody
  | [] => ⟨false, [], [], []⟩
  | c :: cs =>
    if c = quote then ⟨true, [], [c], cs⟩
    else if c = '\\' then
      match cs with
      | [] => ⟨false, [], [c], []⟩
      | d :: ds =>
        if isLineBreak d then ⟨false, [], [c], d :: ds⟩
        else
          let body := readQuoted quote ds
          ⟨body.closed, d :: body.content, c :: d :: body.raw, body.rest⟩
    else if isLineBreak c then ⟨false, [], [c], cs⟩
    else
      let body := readQuoted quote cs
      ⟨body.closed, c :: body.content, c :: body.raw, body.rest⟩

theorem readQuoted_raw (quote : Char) (text : List Char) :
    (readQuoted quote text).raw ++ (readQuoted quote text).rest = text := by
  fun_induction readQuoted quote text with
  | case1 => rfl
  | case2 => rfl
  | case3 => rfl
  | case4 => rfl
  | case5 d ds _ _ body ih =>
    simp only [List.cons_append]
    rw [ih]
  | case6 => rfl
  | case7 c cs _ _ _ body ih =>
    simp only [List.cons_append]
    rw [ih]

/-! ### Lexemes -/

/-- What a stretch of characters stands for. -/
inductive Meaning where
  /-- A token with a kind and a value. -/
  | token (kind : TokenKind) (value : List Char)
  /-- A string that its line does not close. -/
  | unterminated (quote : Char)
deriving DecidableEq

/-- A stretch of characters, what it stands for, and the characters behind it. -/
structure Lexeme where
  meaning : Meaning
  raw : List Char
  rest : List Char
deriving DecidableEq

namespace Lexeme

/-- A token of one character. -/
def single (kind : TokenKind) (c : Char) (cs : List Char) : Lexeme :=
  ⟨.token kind [c], [c], cs⟩

/-- A string that opens with `quote`. -/
def quotedString (quote : Char) (cs : List Char) : Lexeme :=
  let body := readQuoted quote cs
  ⟨if body.closed then .token .quoted body.content else .unterminated quote,
    quote :: body.raw, body.rest⟩

/-- A comment: `c` and all up to the line break. -/
def comment (c : Char) (cs : List Char) : Lexeme :=
  let raw := c :: cs.takeWhile (!isLineBreak ·)
  ⟨.token .comment raw, raw, cs.dropWhile (!isLineBreak ·)⟩

/-- The kind of an unquoted word. -/
def wordKind (word : List Char) : TokenKind :=
  match Keyword.ofWord? (String.ofList word) with
  | some k => .keyword k
  | none => .word

/-- An unquoted word: `c` and all up to a character that ends it. -/
def word (c : Char) (cs : List Char) : Lexeme :=
  let raw := c :: cs.takeWhile (!endsWord ·)
  ⟨.token (wordKind raw) raw, raw, cs.dropWhile (!endsWord ·)⟩

/-- The lexeme at the head of a text that does not begin with a space. -/
def read? : List Char → Option Lexeme
  | [] => none
  | c :: cs => some <|
    if c = '\'' ∨ c = '"' then quotedString c cs
    else if c = '#' then comment c cs
    else if c = ';' then single .statementEnd c cs
    else if c = '\x7b' then single .blockStart c cs
    else if c = '\x7d' then single .blockEnd c cs
    else if isLineBreak c then single .lineBreak c cs
    else if c = '=' then
      match cs with
      | '>' :: ds => ⟨.token .arrow [c, '>'], [c, '>'], ds⟩
      | _ => word c cs
    else word c cs

theorem read?_eq_none_iff {text : List Char} : read? text = none ↔ text = [] := by
  cases text <;> simp [read?]

theorem word_raw (c : Char) (cs : List Char) : (word c cs).raw ++ (word c cs).rest = c :: cs := by
  simp [word, List.takeWhile_append_dropWhile]

theorem comment_raw (c : Char) (cs : List Char) :
    (comment c cs).raw ++ (comment c cs).rest = c :: cs := by
  simp [comment, List.takeWhile_append_dropWhile]

theorem quotedString_raw (c : Char) (cs : List Char) :
    (quotedString c cs).raw ++ (quotedString c cs).rest = c :: cs := by
  simp [quotedString, readQuoted_raw]

/-- A lexeme takes at least one character, and nothing is lost. -/
theorem read?_raw {text : List Char} {l : Lexeme} (h : read? text = some l) :
    l.raw ≠ [] ∧ l.raw ++ l.rest = text := by
  cases text with
  | nil => simp [read?] at h
  | cons c cs =>
    have hl := Option.some.inj h
    subst hl
    split
    · exact ⟨by simp [quotedString], quotedString_raw c cs⟩
    split
    · exact ⟨by simp [comment], comment_raw c cs⟩
    split
    · exact ⟨by simp [single], rfl⟩
    split
    · exact ⟨by simp [single], rfl⟩
    split
    · exact ⟨by simp [single], rfl⟩
    split
    · exact ⟨by simp [single], rfl⟩
    split
    · split
      · exact ⟨by simp, rfl⟩
      · exact ⟨by simp [word], word_raw c _⟩
    · exact ⟨by simp [word], word_raw c cs⟩

theorem rest_shorter {text : List Char} {l : Lexeme} (h : read? text = some l) :
    l.rest.length < text.length := by
  obtain ⟨hne, heq⟩ := read?_raw h
  have hpos : 0 < l.raw.length := List.length_pos_iff.mpr hne
  have hlen := congrArg List.length heq
  rw [List.length_append] at hlen
  omega

end Lexeme

/-! ### Tokens with their places -/

/-- What one reading step finds, and the cursor behind it. -/
inductive Step where
  /-- Nothing but spaces is left. -/
  | finished (after : Cursor)
  /-- A token. -/
  | token (t : Token) (after : Cursor)
  /-- An unterminated string; reading can go on behind it. -/
  | fault (f : Fault) (after : Cursor)
deriving DecidableEq

/-- The cursor behind a step. -/
def Step.after : Step → Cursor
  | finished c | token _ c | fault _ c => c

namespace Cursor

/-- The cursor behind the spaces. -/
def skipGap (c : Cursor) : Cursor :=
  c.moveOver (c.rest.takeWhile isGap) (c.rest.dropWhile isGap)

theorem skipGap_length (c : Cursor) : c.skipGap.rest.length ≤ c.rest.length := by
  show (c.rest.dropWhile isGap).length ≤ c.rest.length
  exact (List.dropWhile_sublist _).length_le

/-- The cursor behind a lexeme. -/
def behind (c : Cursor) (l : Lexeme) : Cursor := c.moveOver l.raw l.rest

/-- The step over a lexeme that begins at the cursor. -/
def stepOver (c : Cursor) (l : Lexeme) : Step :=
  match l.meaning with
  | .token kind value =>
    .token ⟨kind, String.ofList value, ⟨c.position, (c.behind l).position⟩⟩ (c.behind l)
  | .unterminated quote => .fault ⟨.unterminatedString quote, c.position⟩ (c.behind l)

theorem stepOver_after (c : Cursor) (l : Lexeme) : (c.stepOver l).after = c.behind l := by
  unfold stepOver
  split <;> rfl

/-- Skips the spaces and reads the lexeme behind them. -/
def step (c : Cursor) : Step :=
  match Lexeme.read? c.skipGap.rest with
  | none => .finished c.skipGap
  | some l => c.skipGap.stepOver l

theorem step_shorter {c : Cursor} (h : ∀ after, c.step ≠ .finished after) :
    c.step.after.rest.length < c.rest.length := by
  unfold step at h ⊢
  split
  · next hl => exact absurd (by simp [hl]) (h c.skipGap)
  · next l hl =>
    rw [stepOver_after]
    show l.rest.length < c.rest.length
    exact Nat.lt_of_lt_of_le (Lexeme.rest_shorter hl) (skipGap_length c)

theorem token_shorter {c after : Cursor} {t : Token} (h : c.step = .token t after) :
    after.rest.length < c.rest.length := by
  have hs := step_shorter (c := c) (by simp [h])
  rwa [h] at hs

theorem fault_shorter {c after : Cursor} {f : Fault} (h : c.step = .fault f after) :
    after.rest.length < c.rest.length := by
  have hs := step_shorter (c := c) (by simp [h])
  rwa [h] at hs

/-- All steps from the cursor on, past faults, up to the one that finds the end. -/
def steps (c : Cursor) : List Step :=
  match _h : c.step with
  | .finished after => [.finished after]
  | .token t after => .token t after :: after.steps
  | .fault f after => .fault f after :: after.steps
termination_by c.rest.length
decreasing_by
  · exact token_shorter _h
  · exact fault_shorter _h

end Cursor

/-- The tokens of a text up to its end or its first fault. -/
structure TokenStream where
  tokens : List Token
  fault : Option Fault
deriving DecidableEq

namespace TokenStream

/-- Puts a token before a stream. -/
def cons (t : Token) (s : TokenStream) : TokenStream := ⟨t :: s.tokens, s.fault⟩

/-- The stream of the tokens that a list of steps finds. -/
def ofSteps : List Step → TokenStream
  | [] | .finished _ :: _ => ⟨[], none⟩
  | .token t _ :: more => cons t (ofSteps more)
  | .fault f _ :: _ => ⟨[], some f⟩

/-- The token stream of a text. -/
def ofText (text : String) : TokenStream := ofSteps (Cursor.ofText text).steps

end TokenStream

/-- All tokens of a text, or the first fault. -/
def tokenize (text : String) : Except Fault (List Token) :=
  let stream := TokenStream.ofText text
  match stream.fault with
  | some f => .error f
  | none => .ok stream.tokens

end HostRules
