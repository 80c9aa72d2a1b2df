/-
HostRules/Proofs/Addresses.lean

The host of a rule is looked for behind the first two slashes in a row.  In `scheme://host/path`
these are the slashes of the scheme, whatever the path holds; but without a scheme two slashes in
the path are taken for them, and the rule goes to what stands behind.

    scheme://host/p  ->  host, /p          host/p  ->  host, /p   when /p has no two slashes in a row

Design.  Where the first two slashes in a row stand is said by lists alone
(`behindSlashes?_append`, `behindSlashes?_eq_some`); a text without slashes in front does not move
them (`slashes_infix_append`).  An address is what is left behind them, or the whole source, and
its host is what stands before its first slash (`expand_address`).

Main results: what a rule is expanded to, with a scheme and without one
(`Rule.expand_own_host`); a path with two slashes in a row, which is lost
(`RuleFile.own_host_lost`).
-/
import HostRules.Proofs.Hosts
import HostRules.Proofs.Spelling
import HostRules.Regex.Standard
import HostRules.Statement.Parse

namespace HostRules

/-- The definition of a host with the one location of a rule. -/
def Domain.passing [Regex.Dialect] (passthrough host path target : String) : Domain :=
  { name := host
    directives := []
    bindings := ∅
    locations :=
      [{ pattern := .path path
         isBaseRule := true
         directives := []
         bindings := (∅ : Bindings).insert passthrough (.scalar target) }] }

namespace Rule

variable {text front rest host path : List Char} {c : Char}

/-! ### Two slashes in a row -/

theorem behindSlashes?_cons (h : ¬ ['/', '/'] <+: c :: text) :
    behindSlashes? (c :: text) = behindSlashes? text := by
  cases text with
  | nil => rfl
  | cons d text =>
    refine if_neg ?_
    rintro ⟨rfl, rfl⟩
    exact h (List.prefix_append ['/', '/'] text)

/-- Two slashes in a row are found where none stand before. -/
theorem behindSlashes?_append (h : ¬ ['/', '/'] <:+: front ++ ['/']) (rest : List Char) :
    behindSlashes? (front ++ '/' :: '/' :: rest) = some rest := by
  induction front with
  | nil => rfl
  | cons c front ih =>
    rw [List.cons_append, List.infix_cons_iff, not_or] at h
    rw [List.cons_append, behindSlashes?_cons, ih h.2]
    -- the two characters at the front are followed by the same text up to the first slash
    intro hprefix
    have hfront : c :: (front ++ ['/']) <+: c :: (front ++ '/' :: '/' :: rest) :=
      ⟨'/' :: rest, by simp⟩
    exact h.1 (List.prefix_of_prefix_length_le hprefix hfront (by simp))

/-- What is found stands behind two slashes in a row, and before them there are none. -/
theorem behindSlashes?_eq_some (h : behindSlashes? text = some rest) :
    ∃ front, text = front ++ '/' :: '/' :: rest ∧ ¬ ['/', '/'] <:+: front ++ ['/'] := by
  fun_induction behindSlashes? text with
  | case1 => cases h
  | case2 => cases h
  | case3 c d text hslashes =>
    obtain ⟨rfl, rfl⟩ := hslashes
    cases h
    exact ⟨[], rfl, by decide⟩
  | case4 c d text hslashes ih =>
    obtain ⟨front, hfront, hfirst⟩ := ih h
    refine ⟨c :: front, by rw [hfront, List.cons_append], ?_⟩
    rw [List.cons_append, List.infix_cons_iff, not_or]
    refine ⟨fun hprefix => ?_, hfirst⟩
    obtain ⟨hc, hnext⟩ := List.cons_prefix_cons.mp hprefix
    -- `d` comes before the slashes that are found, or is the first of them
    have hd : ['/'] <+: d :: text := hnext.trans ⟨'/' :: rest, by rw [hfront]; simp⟩
    exact hslashes ⟨hc.symm, (List.cons_prefix_cons.mp hd).1.symm⟩

/-- Nothing is found where no two slashes stand in a row. -/
theorem behindSlashes?_eq_none_iff : behindSlashes? text = none ↔ ¬ ['/', '/'] <:+: text := by
  fun_induction behindSlashes? text with
  | case1 => exact iff_of_true rfl (by simp)
  | case2 c => exact iff_of_true rfl fun h => absurd h.length_le (by simp)
  | case3 c d text hslashes =>
    obtain ⟨rfl, rfl⟩ := hslashes
    exact iff_of_false (Option.some_ne_none _) fun h => h (List.prefix_append _ text).isInfix
  | case4 c d text hslashes ih =>
    have hstep : ['/', '/'] <:+: c :: d :: text ↔ ['/', '/'] <:+: d :: text := by
      refine List.infix_cons_iff.trans (or_iff_right fun hprefix => ?_)
      obtain ⟨hc, hnext⟩ := List.cons_prefix_cons.mp hprefix
      exact hslashes ⟨hc.symm, (List.cons_prefix_cons.mp hnext).1.symm⟩
    rw [ih, hstep]

/-- Two slashes in a row stand behind a text without slashes. -/
theorem slashes_infix_append (h : '/' ∉ front) :
    ['/', '/'] <:+: front ++ text ↔ ['/', '/'] <:+: text := by
  induction front with
  | nil => rfl
  | cons c front ih =>
    rw [List.mem_cons, not_or] at h
    rw [List.cons_append, List.infix_cons_iff, ih h.2]
    -- two slashes that begin here would begin with `c`
    refine or_iff_right fun hprefix => ?_
    exact h.1 (List.cons_prefix_cons.mp hprefix).1

/-! ### Addresses -/

/-- The address of a rule with a scheme is what stands behind the slashes of the scheme. -/
theorem address_scheme {scheme : String} (h : '/' ∉ scheme.toList) (rest target : String) :
    address ⟨scheme ++ "://" ++ rest, target⟩ = rest.toList := by
  have hfirst : ¬ ['/', '/'] <:+: (scheme.toList ++ [':']) ++ ['/'] := by
    rw [slashes_infix_append (by simpa using h)]
    decide
  have htext : (scheme ++ "://" ++ rest).toList =
      (scheme.toList ++ [':']) ++ '/' :: '/' :: rest.toList := by simp
  rw [address, htext, behindSlashes?_append hfirst]
  rfl

/-- A rule without a scheme has its source for its address, when the source has no two slashes in
a row. -/
theorem address_bare {r : Rule} (h : ¬ ['/', '/'] <:+: r.source.toList) :
    r.address = r.source.toList := by
  rw [address, behindSlashes?_eq_none_iff.mpr h]
  rfl

section

variable [Regex.Dialect]

/-- A rule goes to the host before the first slash of its address, with the path from there on. -/
theorem expand_address {r : Rule} (passthrough : String) (hhost : '/' ∉ host)
    (hpath : ∀ c, path.head? = some c → c = '/') (h : r.address = host ++ path) :
    r.expand passthrough =
      .passing passthrough (String.ofList host) (String.ofList ('/' :: path.drop 1)) r.target := by
  obtain ⟨htake, hdrop⟩ := split_at_char hhost hpath
  unfold expand Rule.host Rule.path
  rw [h, htake, hdrop]
  rfl

/-- A host with a path behind it, as an address. -/
theorem expand_host_path {r : Rule} (passthrough : String) {host path : String}
    (hhost : '/' ∉ host.toList) (h : r.address = (host ++ "/" ++ path).toList) :
    r.expand passthrough = .passing passthrough host ("/" ++ path) r.target := by
  have hsplit : r.address = host.toList ++ '/' :: path.toList := by rw [h]; simp
  have hslash : ∀ c, ('/' :: path.toList).head? = some c → c = '/' :=
    fun c hc => (Option.some.inj hc).symm
  have hlocation : String.ofList ('/' :: path.toList) = "/" ++ path := by
    rw [← String.toList_inj]
    simp
  rw [expand_address passthrough hhost hslash hsplit, String.ofList_toList, List.drop_one,
    List.tail_cons, hlocation]

/-- A host alone, as an address. -/
theorem expand_host {r : Rule} (passthrough : String) {host : String}
    (hhost : '/' ∉ host.toList) (h : r.address = host.toList) :
    r.expand passthrough = .passing passthrough host "/" r.target := by
  have hsplit : r.address = host.toList ++ [] := by rw [h, List.append_nil]
  rw [expand_address passthrough hhost (fun c hc => by cases hc) hsplit, String.ofList_toList]
  rfl

theorem passing_inj {passthrough host host' path path' target : String}
    (h : Domain.passing passthrough host path target =
      .passing passthrough host' path' target) : host = host' ∧ path = path' := by
  unfold Domain.passing at h
  simpa using h

/-- An address that is shorter than a host and a path has another host or another path. -/
theorem expand_shorter {r : Rule} (passthrough : String) {host path : String}
    (h : r.address.length < host.toList.length + path.toList.length) :
    r.expand passthrough ≠ .passing passthrough host ("/" ++ path) r.target := by
  intro hexpand
  have hexpand' : Domain.passing passthrough r.host (String.ofList ('/' :: r.path)) r.target =
      .passing passthrough host ("/" ++ path) r.target := hexpand
  obtain ⟨hhost, hpath⟩ := passing_inj hexpand'
  -- a host and a path are told from the address, and with their slash they make it up
  have hhost' : r.address.takeWhile (· != '/') = host.toList := by
    rw [← hhost, Rule.host, String.toList_ofList]
  have hpath' : (r.address.dropWhile (· != '/')).drop 1 = path.toList := by
    have hlist := congrArg String.toList hpath
    rw [String.toList_ofList, String.toList_append] at hlist
    exact (List.cons.inj hlist).2
  have hsplit := congrArg List.length
    (List.takeWhile_append_dropWhile (p := (· != '/')) (l := r.address))
  have hdrop := congrArg List.length hpath'
  rw [List.length_append, hhost'] at hsplit
  rw [List.length_drop] at hdrop
  omega

/-- Without a scheme a rule keeps its host and path exactly when the path has no two slashes in a
row. -/
theorem expand_bare_iff (passthrough target : String) {host path : String}
    (hhost : '/' ∉ host.toList) :
    expand passthrough ⟨host ++ "/" ++ path, target⟩ =
      .passing passthrough host ("/" ++ path) target ↔ ¬ ['/', '/'] <:+: ("/" ++ path).toList := by
  have hslashes : ['/', '/'] <:+: (host ++ "/" ++ path).toList ↔
      ['/', '/'] <:+: ("/" ++ path).toList := by
    rw [String.append_assoc, String.toList_append, slashes_infix_append hhost]
  rw [← hslashes]
  constructor
  · rintro hexpand hinfix
    cases hbehind : behindSlashes? (host ++ "/" ++ path).toList with
    | none => exact behindSlashes?_eq_none_iff.mp hbehind hinfix
    | some rest =>
      -- what stands behind two slashes is too short for the host and the path
      have haddress : address ⟨host ++ "/" ++ path, target⟩ = rest := by
        rw [address, hbehind]
        rfl
      obtain ⟨front, hfront, -⟩ := behindSlashes?_eq_some hbehind
      have hlength := congrArg List.length hfront
      simp at hlength
      refine expand_shorter passthrough ?_ hexpand
      rw [haddress]
      omega
  · exact fun hfree => expand_host_path passthrough hhost (address_bare hfree)

/-- What stands behind the first two slashes in a row of a source is expanded as if it stood behind
a scheme. -/
theorem expand_behind_slashes (passthrough target : String) {source front rest : String}
    (hsource : source = front ++ "//" ++ rest) (hfirst : ¬ ['/', '/'] <:+: (front ++ "/").toList) :
    expand passthrough ⟨source, target⟩ = expand passthrough ⟨"://" ++ rest, target⟩ := by
  have hlist : source.toList = front.toList ++ '/' :: '/' :: rest.toList := by
    rw [hsource]
    simp
  have hfirst' : ¬ ['/', '/'] <:+: front.toList ++ ['/'] := by simpa using hfirst
  have haddress : address ⟨source, target⟩ = rest.toList := by
    rw [address, hlist, behindSlashes?_append hfirst']
    rfl
  have hscheme : address ⟨"://" ++ rest, target⟩ = rest.toList :=
    @address_scheme "" (by decide) rest target
  unfold expand Rule.host Rule.path
  rw [haddress, hscheme]

/-- **A rule goes to its own host.**  With a scheme it does, whatever the path holds, and so does a
host without a path, with a scheme or without one.  A host with a path and without a scheme is kept
exactly when the path has no two slashes in a row; otherwise what stands behind the first two of
them is taken for the address. -/
theorem expand_own_host (passthrough scheme host path target : String)
    (hscheme : '/' ∉ scheme.toList) (hhost : '/' ∉ host.toList) :
    expand passthrough ⟨scheme ++ "://" ++ host ++ "/" ++ path, target⟩ =
      .passing passthrough host ("/" ++ path) target ∧
    expand passthrough ⟨scheme ++ "://" ++ host, target⟩ = .passing passthrough host "/" target ∧
    expand passthrough ⟨host, target⟩ = .passing passthrough host "/" target ∧
    (expand passthrough ⟨host ++ "/" ++ path, target⟩ =
      .passing passthrough host ("/" ++ path) target ↔ ¬ ['/', '/'] <:+: ("/" ++ path).toList) ∧
    ∀ front rest : String, "/" ++ path = front ++ "//" ++ rest →
      ¬ ['/', '/'] <:+: (front ++ "/").toList →
      expand passthrough ⟨host ++ "/" ++ path, target⟩ =
        expand passthrough ⟨"://" ++ rest, target⟩ := by
  refine ⟨?_, ?_, ?_, expand_bare_iff passthrough target hhost, ?_⟩
  · have hrest : scheme ++ "://" ++ host ++ "/" ++ path =
        scheme ++ "://" ++ (host ++ "/" ++ path) := by simp only [String.append_assoc]
    rw [hrest]
    exact expand_host_path passthrough hhost (address_scheme hscheme _ target)
  · exact expand_host passthrough hhost (address_scheme hscheme _ target)
  · refine expand_host passthrough hhost (address_bare fun hslashes => ?_)
    exact hhost (hslashes.sublist.subset List.mem_cons_self)
  · intro front rest hpath hfirst
    -- the host has no slashes, so the first two in a row are those of the path
    have hsource : host ++ "/" ++ path = (host ++ front) ++ "//" ++ rest := by
      rw [String.append_assoc, hpath]
      simp only [String.append_assoc]
    refine expand_behind_slashes passthrough target hsource ?_
    rw [String.append_assoc, String.toList_append, slashes_infix_append hhost]
    exact hfirst

end

/-- A path that holds two slashes and one that holds a whole address, with a scheme and without. -/
theorem expand_own_host_nextSample :
    expand "proxy_pass" ⟨"http" ++ "://" ++ "a.com" ++ "/" ++ "x//y", "http://t/"⟩ =
      .passing "proxy_pass" "a.com" ("/" ++ "x//y") "http://t/" ∧
    expand "proxy_pass" ⟨"a.com" ++ "/" ++ "x/y", "http://t/"⟩ =
      .passing "proxy_pass" "a.com" ("/" ++ "x/y") "http://t/" ∧
    expand "proxy_pass" ⟨"a.com" ++ "/" ++ "?next=http://b.com/", "http://t/"⟩ =
      expand "proxy_pass" ⟨"://" ++ "b.com/", "http://t/"⟩ := by
  have hscheme : '/' ∉ "http".toList := by decide
  have hhost : '/' ∉ "a.com".toList := by decide
  refine ⟨(expand_own_host "proxy_pass" "http" "a.com" "x//y" "http://t/" hscheme hhost).1, ?_, ?_⟩
  · obtain ⟨-, -, -, hpath, -⟩ :=
      expand_own_host "proxy_pass" "http" "a.com" "x/y" "http://t/" hscheme hhost
    exact hpath.mpr (by decide +kernel)
  · obtain ⟨-, -, -, -, hlost⟩ :=
      expand_own_host "proxy_pass" "http" "a.com" "?next=http://b.com/" "http://t/" hscheme hhost
    exact hlost "/?next=http:" "b.com/" (by decide +kernel) (by decide +kernel)

end Rule

/-- A rule without a scheme whose path has two slashes in a row is lost for its host: the text
behind them becomes the host. -/
theorem RuleFile.own_host_lost : ∃ f, parse "a.com/x//y => http://t/" = .ok f ∧
    f.rules = [⟨"a.com" ++ "/" ++ "x//y", "http://t/"⟩] ∧
    (f.resolve "proxy_pass").get? "a.com" = none ∧
    f.domains "proxy_pass" = [.passing "proxy_pass" "y" "/" "http://t/"] :=
  exists_parse (by decide +kernel)

end HostRules
