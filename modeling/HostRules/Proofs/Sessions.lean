/-
HostRules/Proofs/Sessions.lean

Many texts, one session.  A session keeps nothing of a text but the rejection that it reports, so
the next text is compiled as if it were the first:

    compileAll s [a, b, …]  =  compile a, compile b, …      each under the options of `s`

Design.  What some results do to a session is a relation (`Session.Follows`): the options are the
same, and the rejections among the results are reported behind those there were, in their order.
One text is such a step (`follows_compile`), steps compose (`Follows.trans`), and a run is made of
them (`follows_compileAll`), whichever of its texts are refused.

Main result: `Session.compileAll_exact`.
-/
import HostRules.Compile
import HostRules.Regex.Standard

namespace HostRules

/-- The rejection that a result tells of, if it is one. -/
def rejection? {α : Type} : Except Rejection α → Option Rejection
  | .ok _ => none
  | .error r => some r

section

variable [Regex.Dialect]

theorem Options.sourceName_of_compile {o : Options} {source : String} {r : Rejection}
    (h : o.compile source = .error r) : r.sourceName = o.sourceName := by
  unfold compile at h
  -- resolving does not fail, so a rejection comes from reading
  cases hparse : RuleFile.parse source with
  | ok f =>
    rw [hparse] at h
    cases h
  | error fault =>
    rw [hparse] at h
    cases h
    rfl

namespace Session

variable {s s₁ s₂ : Session} {a b results : List (Except Rejection Config)}
variable {step : Except Rejection Config × Session}
variable {front back : List (Except Rejection Config × Session)}

/-- A session behind another one, with some results between them. -/
structure Follows (s : Session) (results : List (Except Rejection Config)) (s' : Session) :
    Prop where
  options : s'.options = s.options
  reported : s'.reported = s.reported ++ results.filterMap rejection?

/-- A session that has compiled nothing. -/
def fresh (o : Options) : Session := { options := o }

/-! ### One text -/

/-- The result of a text depends on the options of the session only. -/
theorem compile_result (s : Session) (source : String) :
    (s.compile source).1 = s.options.compile source := by
  unfold compile
  cases s.options.compile source <;> rfl

/-- One text leaves the options, and reports its rejection if it is refused. -/
theorem follows_compile (s : Session) (source : String) :
    s.Follows [(s.compile source).1] (s.compile source).2 := by
  unfold compile
  cases s.options.compile source with
  | ok c => exact ⟨rfl, (List.append_nil _).symm⟩
  | error r => exact ⟨rfl, rfl⟩

/-! ### Texts in turn -/

theorem Follows.trans (h₁ : s.Follows a s₁) (h₂ : s₁.Follows b s₂) : s.Follows (a ++ b) s₂ where
  options := h₂.options.trans h₁.options
  reported := by
    rw [h₂.reported, h₁.reported, List.filterMap_append, List.append_assoc]

/-- Wherever a run has come, its results lead there. -/
theorem follows_compileAll {sources : List String}
    (h : s.compileAll sources = front ++ step :: back) :
    s.Follows ((front ++ [step]).map (·.1)) step.2 := by
  -- along the texts: the run has come to the first of them, or somewhere behind it
  induction sources generalizing s front with
  | nil => exact absurd h (by simp [compileAll])
  | cons source sources ih =>
    have hone := s.follows_compile source
    cases front with
    | nil =>
      obtain ⟨rfl, -⟩ := List.cons.inj h
      exact hone
    | cons first front =>
      obtain ⟨rfl, hmore⟩ := List.cons.inj h
      exact hone.trans (ih hmore)

/-- The results of a run are those of its texts under the options at its start. -/
theorem results_compileAll (s : Session) (sources : List String) :
    (s.compileAll sources).map (·.1) = sources.map s.options.compile := by
  induction sources generalizing s with
  | nil => rfl
  | cons source sources ih =>
    show (s.compile source).1 :: ((s.compile source).2.compileAll sources).map (·.1) = _
    -- the next text is compiled in the session behind this one, which has the same options
    rw [ih, compile_result, (s.follows_compile source).options, List.map_cons]

theorem mem_filterMap_rejection? {r : Rejection} (h : r ∈ results.filterMap rejection?) :
    .error r ∈ results := by
  obtain ⟨result, hmem, hr⟩ := List.mem_filterMap.mp h
  cases result with
  | ok c => cases hr
  | error r' =>
    cases hr
    exact hmem

/-- Whatever a run reports up to some text has the name that the session gives to texts. -/
theorem sourceName_of_reported {sources : List String} {r : Rejection}
    (h : s.compileAll sources = front ++ step :: back)
    (hr : r ∈ ((front ++ [step]).map (·.1)).filterMap rejection?) :
    r.sourceName = s.options.sourceName := by
  -- a rejection that was reported is the result of some text
  have hmem : .error r ∈ (s.compileAll sources).map (·.1) := by
    rw [h, ← List.singleton_append, ← List.append_assoc, List.map_append]
    exact List.mem_append_left _ (mem_filterMap_rejection? hr)
  rw [results_compileAll] at hmem
  obtain ⟨source, -, hcompile⟩ := List.mem_map.mp hmem
  exact Options.sourceName_of_compile hcompile

/-- **A session compiles many texts as fresh ones do, and reports the failures.**  Each result is
that of the text in a fresh session with the same options: the file that is read, resolved, or else
the fault of reading, with the name that the options give to the text put into its diagnostic.  Up
to each of the texts the options are those of the start, and what has been reported are the
rejections among the results, in order and each of them once, with that name. -/
theorem compileAll_exact (o : Options) (sources : List String) :
    ((fresh o).compileAll sources).map (·.1) =
      sources.map (fun source => ((fresh o).compile source).1) ∧
    (∀ source,
      (∀ f, RuleFile.parse source = .ok f →
        ((fresh o).compile source).1 = .ok (f.resolve o.passthrough)) ∧
      ∀ fault, RuleFile.parse source = .error fault →
        ∃ r, ((fresh o).compile source).1 = .error r ∧ r.fault = fault ∧
          r.diagnostic = { fault.diagnostic source none with sourceName := o.sourceName }) ∧
    ∀ front step back, (fresh o).compileAll sources = front ++ step :: back →
      step.2.options = o ∧
      step.2.reported = ((front ++ [step]).map (·.1)).filterMap rejection? ∧
      ∀ r ∈ step.2.reported, r.diagnostic.sourceName = o.sourceName := by
  refine ⟨?_, ?_, ?_⟩
  · rw [results_compileAll]
    exact List.map_congr_left fun source _ => ((fresh o).compile_result source).symm
  · intro source
    rw [compile_result]
    unfold Options.compile
    cases RuleFile.parse source with
    | ok f =>
      refine ⟨?_, nofun⟩
      intro f' hf
      cases hf
      rfl
    | error fault =>
      refine ⟨nofun, ?_⟩
      intro fault' hf
      cases hf
      exact ⟨_, rfl, rfl, rfl⟩
  · intro front step back h
    have hfollows := follows_compileAll h
    have hreported : step.2.reported = ((front ++ [step]).map (·.1)).filterMap rejection? :=
      hfollows.reported
    refine ⟨hfollows.options, hreported, ?_⟩
    intro r hr
    rw [hreported] at hr
    exact sourceName_of_reported h hr

end Session

end

namespace Session

/-- A rule with two arrows, a host, and a string that its line does not close. -/
def mixedSample : List String := ["a => b => c", "a.com => \x7b log x \x7d", "set $a 'x"]

theorem compileAll_exact_mixedSample : ∃ r c r',
    ((fresh { sourceName := some "bad.conf" }).compileAll mixedSample).map (·.1) =
      [.error r, .ok c, .error r'] ∧
    ((fresh { sourceName := some "bad.conf" }).compileAll mixedSample).map (·.2.reported) =
      [[r], [r], [r, r']] ∧
    r.diagnostic.sourceName = some "bad.conf" := by
  obtain ⟨fault, hfault⟩ : ∃ fault, RuleFile.parse "a => b => c" = .error fault :=
    RuleFile.exists_fault (by decide +kernel)
  obtain ⟨f, hf, -⟩ : ∃ f, RuleFile.parse "a.com => \x7b log x \x7d" = .ok f ∧ True :=
    RuleFile.exists_parse (by decide +kernel)
  obtain ⟨fault', hfault'⟩ : ∃ fault, RuleFile.parse "set $a 'x" = .error fault :=
    RuleFile.exists_fault (by decide +kernel)
  obtain ⟨hresults, hone, hreported⟩ :=
    compileAll_exact { sourceName := some "bad.conf" } mixedSample
  obtain ⟨r, hr, -, -⟩ := (hone _).2 fault hfault
  have hc := (hone _).1 f hf
  obtain ⟨r', hr', -, -⟩ := (hone _).2 fault' hfault'
  obtain ⟨x, y, z, hrun⟩ :
    ∃ x y z, (fresh { sourceName := some "bad.conf" }).compileAll mixedSample = [x, y, z] :=
      ⟨_, _, _, rfl⟩
  rw [hrun] at hresults hreported ⊢
  obtain ⟨hx, hy, hz⟩ : x.1 = .error r ∧ y.1 = .ok (f.resolve "proxy_pass") ∧ z.1 = .error r' := by
    simpa [mixedSample, hr, hc, hr'] using hresults
  have hfirst : x.2.reported = [r] := by
    simpa [hx, rejection?] using (hreported [] x [y, z] rfl).2.1
  have hsecond : y.2.reported = [r] := by
    simpa [hx, hy, List.filterMap_cons, rejection?] using (hreported [x] y [z] rfl).2.1
  have hthird : z.2.reported = [r, r'] := by
    simpa [hx, hy, hz, List.filterMap_cons, rejection?] using (hreported [x, y] z [] rfl).2.1
  refine ⟨r, f.resolve "proxy_pass", r', ?_, ?_, ?_⟩
  · simp only [List.map_cons, List.map_nil, hx, hy, hz]
  · simp only [List.map_cons, List.map_nil, hfirst, hsecond, hthird]
  · refine (hreported [] x [y, z] rfl).2.2 r ?_
    rw [hfirst]
    exact List.mem_singleton.mpr rfl

end Session

end HostRules
