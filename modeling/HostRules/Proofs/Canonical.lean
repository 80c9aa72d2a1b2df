/-
HostRules/Proofs/Canonical.lean

Compiling canonical texts.  What a rule file comes to depends on the values of its tokens, and not
on their kinds and places: any function that keeps the values can be applied to all tokens
(`RuleFile.resolve_mapTokens`).  Reading the canonical text of a file gives the file with other
kinds and places, so the canonical text compiles to what the file comes to.

Main results: `RuleFile.compile_print`, and with it that a text that compiles can be exchanged for
the canonical text of what is read of it (`RuleFile.exists_canonical`).
-/
import HostRules.Compile
import HostRules.Proofs.Edits
import HostRules.Proofs.Parsed

namespace HostRules

variable {φ : Token → Token}

theorem Token.unplaced_value (t : Token) : t.unplaced.value = t.value := rfl

theorem Token.quoting_value (t : Token) : t.quoting.value = t.value := rfl

variable [Regex.Dialect]

/-! ### What a statement with other tokens says -/

namespace Statement

theorem declaration?_mapTokens (h : ∀ t, (φ t).value = t.value) (s : Statement) :
    (s.mapTokens φ).declaration? = s.declaration? := by
  cases s with
  | declare name v =>
    rw [mapTokens, declaration?, Value.map_map]
    simp only [h]
    rfl
  | domain | location | call | rule => rfl

theorem directive?_mapTokens (h : ∀ t, (φ t).value = t.value) (s : Statement) :
    (s.mapTokens φ).directive? = s.directive? := by
  cases s with
  | call directive arguments =>
    rw [mapTokens, directive?, List.map_map]
    simp only [Function.comp_def, h]
    rfl
  | domain | location | declare | rule => rfl

theorem rule?_mapTokens (s : Statement) :
    (s.mapTokens φ).rule? = s.rule?.map fun sides => (φ sides.1, φ sides.2) := by
  cases s <;> rfl

theorem domain?_mapTokens (s : Statement) :
    (s.mapTokens φ).domain? = s.domain?.map fun b => (b.1, b.2.map (·.mapTokens φ)) := by
  cases s with
  | domain names body =>
    rw [mapTokens, mapBody_eq_map]
    rfl
  | location | call | declare | rule => rfl

theorem location?_mapTokens (s : Statement) :
    (s.mapTokens φ).location? = s.location?.map fun l => (l.1, l.2.map (·.mapTokens φ)) := by
  cases s with
  | location pattern body =>
    rw [mapTokens, mapBody_eq_map]
    rfl
  | domain | call | declare | rule => rfl

end Statement

/-! ### Resolving bodies with other tokens -/

theorem domainBlocks_mapTokens (body : List Statement) :
    domainBlocks (body.map (·.mapTokens φ)) =
      (domainBlocks body).map fun b => (b.1, b.2.map (·.mapTokens φ)) := by
  unfold domainBlocks
  rw [List.filterMap_map, List.map_filterMap]
  simp only [Function.comp_def, Statement.domain?_mapTokens]

theorem locationBlocks_mapTokens (body : List Statement) :
    locationBlocks (body.map (·.mapTokens φ)) =
      (locationBlocks body).map fun l => (l.1, l.2.map (·.mapTokens φ)) := by
  unfold locationBlocks
  rw [List.filterMap_map, List.map_filterMap]
  simp only [Function.comp_def, Statement.location?_mapTokens]

theorem Scope.ofBody_mapTokens (h : ∀ t, (φ t).value = t.value) (enclosing : List Layer)
    (body : List Statement) :
    Scope.ofBody enclosing (body.map (·.mapTokens φ)) = Scope.ofBody enclosing body := by
  unfold ofBody Layer.ofBody
  simp only [List.filterMap_map, Function.comp_def, Statement.declaration?_mapTokens h,
    Statement.directive?_mapTokens h]

theorem Scope.rules_mapTokens (h : ∀ t, (φ t).value = t.value) (s : Scope)
    (body : List Statement) : s.rules (body.map (·.mapTokens φ)) = s.rules body := by
  have hsides : (body.map (·.mapTokens φ)).filterMap Statement.rule? =
      (body.filterMap Statement.rule?).map fun sides => (φ sides.1, φ sides.2) := by
    rw [List.filterMap_map, List.map_filterMap]
    simp only [Function.comp_def, Statement.rule?_mapTokens]
  unfold rules
  rw [hsides]
  simp only [List.map_map, Function.comp_def, h]

theorem HostBlock.resolve_mapTokens (h : ∀ t, (φ t).value = t.value) (s : Scope)
    (names : List String) (body : List Statement) :
    resolve s names (body.map (·.mapTokens φ)) = resolve s names body := by
  unfold resolve
  simp only [locationBlocks_mapTokens, List.map_map, List.flatMap_map, Function.comp_def,
    Scope.ofBody_mapTokens h, Scope.rules_mapTokens h]

namespace RuleFile

/-- Of the tokens of a file, only the values tell what it comes to. -/
theorem resolve_mapTokens (h : ∀ t, (φ t).value = t.value) (passthrough : String)
    (f : RuleFile) : (f.mapTokens φ).resolve passthrough = f.resolve passthrough := by
  have hscope : (f.mapTokens φ).scope = f.scope := Scope.ofBody_mapTokens h [] f.body
  have hresolution : (f.mapTokens φ).resolution = f.resolution := by
    unfold resolution
    rw [hscope]
    simp only [mapTokens, domainBlocks_mapTokens, List.map_map, Function.comp_def,
      Scope.rules_mapTokens h, HostBlock.resolve_mapTokens h]
  unfold resolve domains
  rw [hresolution]

end RuleFile

/-! ### Compiling what is read -/

theorem Options.compile_eq_ok_iff {o : Options} {source : String} {c : Config} :
    o.compile source = .ok c ↔
      ∃ f, RuleFile.parse source = .ok f ∧ f.resolve o.passthrough = c := by
  unfold compile
  cases RuleFile.parse source with
  | ok f => simp
  | error fault => simp

namespace RuleFile

variable {o : Options} {source : String} {f : RuleFile} {c : Config}

/-- What is read of a text, at no place in particular, tells what the text compiles to. -/
theorem compile_of_reading (h : reading source = some f) :
    o.compile source = .ok (f.resolve o.passthrough) := by
  unfold reading at h
  cases hparse : parse source with
  | error fault =>
    rw [hparse] at h
    cases h
  | ok f' =>
    rw [hparse] at h
    obtain rfl : f'.mapTokens Token.unplaced = f := Option.some.inj h
    rw [resolve_mapTokens Token.unplaced_value]
    exact Options.compile_eq_ok_iff.mpr ⟨f', hparse, rfl⟩

theorem reading_print (h : f.WellFormed) :
    reading f.print = some ((f.mapTokens Token.quoting).mapTokens Token.unplaced) := by
  obtain ⟨tokens, hstream, htokens⟩ := ofText_print h
  -- the tokens of the text are read as those that the file was written from
  have hsame : (⟨tokens, none⟩ : TokenStream).unplaced =
      (⟨f.tokens, none⟩ : TokenStream).unplaced := congrArg (TokenStream.mk · none) htokens
  show (TokenStream.ofText f.print).reading = _
  rw [hstream, TokenStream.reading_of_unplaced hsame, TokenStream.reading, ofTokens_tokens h]
  rfl

/-- The canonical text of a file compiles to what the file comes to. -/
theorem compile_print (h : f.WellFormed) (o : Options) :
    o.compile f.print = .ok (f.resolve o.passthrough) := by
  rw [compile_of_reading (reading_print h), resolve_mapTokens Token.unplaced_value,
    resolve_mapTokens Token.quoting_value]

/-- A text that compiles is read as a well-formed file, and the canonical text of that file
compiles to the same. -/
theorem exists_canonical (h : o.compile source = .ok c) :
    ∃ f, parse source = .ok f ∧ f.WellFormed ∧ f.resolve o.passthrough = c ∧
      o.compile f.print = .ok c := by
  obtain ⟨f, hparse, rfl⟩ := Options.compile_eq_ok_iff.mp h
  have hwritten : f.WellFormed := Statement.bodyWellFormed_iff.mpr fun st hst =>
    (sound_of_ofTokens hparse (TokenStream.unbroken_ofText source) st hst).wellFormed
  exact ⟨f, hparse, hwritten, rfl, compile_print hwritten o⟩

end RuleFile

end HostRules
