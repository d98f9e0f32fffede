import Scproxy.DomainRoute
import Scproxy.LongestPrefix

namespace Scproxy

/-- What is assumed of escaped literals: `fullMatch` is the crate's notion of
an expression spanning a whole text, and `fold` its simple case folding. -/
structure RegexCrate.LiteralLaw (regex : RegexCrate) (fullMatch : String → String → Prop)
    (fold : Char → Char) : Prop where
  escape : ∀ name text, fullMatch (regex.escape name) text ↔ text = name
  anchored : ∀ name host, regex.isMatch ("(?i)^" ++ regex.escape name ++ "$") host = true ↔
    ∃ text, fullMatch (regex.escape name) text ∧ text.toList.map fold = host.toList.map fold

/-- The domain rule that an accepted spec states, if it states one. -/
def domainSpec (regex : RegexCrate) (spec : String) : Option DomainRule :=
  match parseSpec regex spec with
  | .ok rule => domainRule regex rule
  | .error _ => none

/-- The route of a spec whose own pattern matches the host. -/
def specRoute (regex : RegexCrate) (host spec : String) : Option ProxyConfig :=
  match domainSpec regex spec with
  | some rule => if regex.isMatch rule.pattern host then some rule.route else none
  | none => none

theorem domainRules_eq_filterMap (regex : RegexCrate) (specs : List String) :
    domainRules regex specs = specs.filterMap (domainSpec regex) :=
  rfl

theorem domainRules_filter (regex : RegexCrate) (specs : List String) :
    domainRules regex (specs.filter fun spec => (domainSpec regex spec).isSome) =
      domainRules regex specs := by
  rw [domainRules_eq_filterMap, domainRules_eq_filterMap, List.filterMap_filter]
  congr 1
  funext spec
  cases domainSpec regex spec with
  | none => rfl
  | some rule => rfl

theorem find?_domainRules (regex : RegexCrate) (specs : List String) (host : String) :
    ((domainRules regex specs).find? fun rule => regex.isMatch rule.pattern host).map (·.route) =
      specs.findSome? (specRoute regex host) := by
  induction specs with
  | nil => rfl
  | cons spec specs ih =>
    rw [domainRules_eq_filterMap] at ih ⊢
    rw [List.filterMap_cons, List.findSome?_cons, specRoute]
    cases domainSpec regex spec with
    | none => exact ih
    | some rule =>
      simp only [List.find?_cons]
      cases regex.isMatch rule.pattern host with
      | true => rfl
      | false => exact ih

theorem matchDomain_eq_findSome? {regex : RegexCrate} {specs : List String} {rules : RuleMatcher}
    (h : RuleMatcher.fromSpecs regex specs = .ok rules) (law : regex.SetLaw) (host : String) :
    rules.matchDomain host = .ok (specs.findSome? (specRoute regex host)) := by
  rw [matchDomain_eq_find? h law, find?_domainRules]

theorem isMatch_domain_iff {regex : RegexCrate} {fullMatch : String → String → Prop}
    {fold : Char → Char} (law : regex.LiteralLaw fullMatch fold) (name host : String) :
    regex.isMatch ("(?i)^" ++ regex.escape name ++ "$") host = true ↔
      host.toList.map fold = name.toList.map fold := by
  rw [law.anchored]
  constructor
  · rintro ⟨text, hfull, hfold⟩
    rw [(law.escape name text).mp hfull] at hfold
    exact hfold.symm
  · intro hfold
    exact ⟨name, (law.escape name name).mpr rfl, hfold.symm⟩

/-- A host that holds the name with something around it is longer. -/
theorem nil_of_fold_append {fold : Char → Char} {name : String} {before text after : List Char}
    (htext : text.map fold = name.toList.map fold)
    (h : (before ++ text ++ after).map fold = name.toList.map fold) : before = [] ∧ after = [] := by
  have hlen := congrArg List.length h
  have htextLen := congrArg List.length htext
  simp only [List.length_map, List.length_append] at hlen htextLen
  exact ⟨List.length_eq_zero_iff.mp (by omega), List.length_eq_zero_iff.mp (by omega)⟩

theorem builder_foldlM_of_parse {regex : RegexCrate} {specs : List String}
    (h : ∀ spec ∈ specs, ∃ rule, parseSpec regex spec = .ok rule) (b : RuleMatcher.Builder) :
    ∃ b', specs.foldlM (RuleMatcher.Builder.step regex) b = .ok b' := by
  induction specs generalizing b with
  | nil => exact ⟨b, rfl⟩
  | cons spec specs ih =>
    obtain ⟨rule, hrule⟩ := h spec (List.mem_cons_self ..)
    obtain ⟨b', hb'⟩ := ih (fun s hs => h s (List.mem_cons_of_mem _ hs)) (b.add regex rule.2 rule.1)
    refine ⟨b', ?_⟩
    rw [List.foldlM_cons]
    refine bind_eq_ok.mpr ⟨_, ?_, hb'⟩
    exact bind_eq_ok.mpr ⟨rule, hrule, rfl⟩

/-- The domain part of a matcher depends on the domain rules alone. -/
theorem fromSpecs_of_domainRules_eq {regex : RegexCrate} {specs specs' : List String}
    {rules : RuleMatcher} (h : RuleMatcher.fromSpecs regex specs = .ok rules)
    (parses : ∀ spec ∈ specs', ∃ rule, parseSpec regex spec = .ok rule)
    (same : domainRules regex specs = domainRules regex specs') :
    ∃ rules', RuleMatcher.fromSpecs regex specs' = .ok rules' ∧
      rules'.domains = rules.domains ∧ rules'.domainActions = rules.domainActions := by
  obtain ⟨b, hb, h⟩ := bind_eq_ok.mp h
  obtain ⟨domains, hdomains, h⟩ := bind_eq_ok.mp h
  cases Except.ok.inj h
  obtain ⟨hpatterns, hactions⟩ := builder_foldlM_domains hb
  obtain ⟨b', hb'⟩ := builder_foldlM_of_parse parses ⟨[], [], .empty⟩
  obtain ⟨hpatterns', hactions'⟩ := builder_foldlM_domains hb'
  have hsame : b'.domainPatterns = b.domainPatterns := by rw [hpatterns, hpatterns', same]
  refine ⟨⟨domains, b'.domainActions, b'.cidr⟩, ?_, rfl, ?_⟩
  · refine bind_eq_ok.mpr ⟨b', hb', bind_eq_ok.mpr ⟨domains, ?_, rfl⟩⟩
    rw [hsame, hdomains]
  · rw [hactions, hactions', same]

theorem domainSpec_of_domain {regex : RegexCrate} {spec name : String} {action : MatchAction}
    (h : parseSpec regex spec = .ok (.domain name, action)) :
    domainSpec regex spec = some ⟨"(?i)^" ++ regex.escape name ++ "$", action.proxy⟩ := by
  rw [domainSpec, h]
  rfl

/-- The index is in bounds whenever the lookup does not panic. -/
theorem lt_of_matchDomain_eq_ok {rules : RuleMatcher} {host : String} {result : Option ProxyConfig}
    {i : Nat} (h : rules.matchDomain host = .ok result)
    (hi : (rules.domains.bind fun domains => (domains host).head?) = some i) :
    i < rules.domainActions.length := by
  rw [RuleMatcher.matchDomain, hi] at h
  obtain ⟨action, hindex, _⟩ := bind_eq_ok.mp h
  exact (List.getElem?_eq_some_iff.mp (index_eq_ok.mp hindex)).1

theorem specRoute_of_domain {regex : RegexCrate} {fullMatch : String → String → Prop}
    {fold : Char → Char} (law : regex.LiteralLaw fullMatch fold) {spec name : String}
    {action : MatchAction} (h : parseSpec regex spec = .ok (.domain name, action)) (host : String) :
    specRoute regex host spec =
      if host.toList.map fold = name.toList.map fold then some action.proxy else none := by
  simp only [specRoute, domainSpec_of_domain h, isMatch_domain_iff law]

theorem matchDomain_first_matching_spec {regex : RegexCrate} {fullMatch : String → String → Prop}
    {fold : Char → Char} (set : regex.SetLaw) (literal : regex.LiteralLaw fullMatch fold)
    {specs : List String} {rules : RuleMatcher}
    (h : RuleMatcher.fromSpecs regex specs = .ok rules) :
    (∀ host i, (rules.domains.bind fun domains => (domains host).head?) = some i →
      i < rules.domainActions.length) ∧
    (∀ host route, rules.matchDomain host = .ok (some route) ↔
      ∃ before spec after, specs = before ++ spec :: after ∧
        specRoute regex host spec = some route ∧
        ∀ earlier ∈ before, specRoute regex host earlier = none) ∧
    (∀ host, rules.matchDomain host = .ok none ↔
      ∀ spec ∈ specs, specRoute regex host spec = none) ∧
    (∀ spec name action, parseSpec regex spec = .ok (.domain name, action) → ∀ host,
      (specRoute regex host spec = some action.proxy ↔
        host.toList.map fold = name.toList.map fold) ∧
      (∀ before text after, text.map fold = name.toList.map fold →
        host.toList = before ++ text ++ after → specRoute regex host spec ≠ none →
          before = [] ∧ after = [])) ∧
    ∀ specs', (∀ spec ∈ specs', ∃ rule, parseSpec regex spec = .ok rule) →
      (specs'.filter fun spec => (domainSpec regex spec).isSome) =
        (specs.filter fun spec => (domainSpec regex spec).isSome) →
      ∃ rules', RuleMatcher.fromSpecs regex specs' = .ok rules' ∧
        ∀ host, rules'.matchDomain host = rules.matchDomain host := by
  have hroute := matchDomain_eq_findSome? h set
  refine ⟨fun host i hi => lt_of_matchDomain_eq_ok (hroute host) hi, ?_, ?_, ?_, ?_⟩
  · intro host route
    rw [hroute, Except.ok.injEq, List.findSome?_eq_some_iff]
  · intro host
    rw [hroute, Except.ok.injEq, List.findSome?_eq_none_iff]
  · intro spec name action hspec host
    rw [specRoute_of_domain literal hspec]
    constructor
    · simp
    · intro before text after htext hhost hmatch
      by_cases hfold : host.toList.map fold = name.toList.map fold
      · rw [hhost] at hfold
        exact nil_of_fold_append htext hfold
      · exact absurd (if_neg hfold) hmatch
  · intro specs' parses same
    have hrules : domainRules regex specs = domainRules regex specs' := by
      rw [← domainRules_filter regex specs, ← same, domainRules_filter]
    obtain ⟨rules', hrules', hdomains, hactions⟩ := fromSpecs_of_domainRules_eq h parses hrules
    refine ⟨rules', hrules', fun host => ?_⟩
    simp only [RuleMatcher.matchDomain, hdomains, hactions]

theorem plainRegex_setLaw : plainRegex.SetLaw := by
  intro patterns set host h
  cases Except.ok.inj h
  rfl

theorem plainRegex_literalLaw :
    plainRegex.LiteralLaw (fun pattern text => text = pattern) Char.toLower where
  escape _ _ := Iff.rfl
  anchored name host := by
    have hstrip : stripPrefix "(?i)^" ("(?i)^" ++ name ++ "$") = some (name ++ "$") := by
      simp [stripPrefix, String.append_assoc]
    show plainRegex.plainMatch ("(?i)^" ++ name ++ "$") host = true ↔
      ∃ text, text = name ∧ text.toList.map Char.toLower = host.toList.map Char.toLower
    simp [plainRegex.plainMatch, hstrip]

/-- A domain rule between address rules, before an expression for the same host. -/
def interleavedSpecs : List String :=
  ["ip:10.1.2.3=direct", "domain:a.b=socks5://127.0.0.1:1080", "cidr:10.0.0.0/8=direct",
    "domain-regex:b=http://127.0.0.1:8080"]

theorem matchDomain_interleavedSpecs :
    ∃ rules, RuleMatcher.fromSpecs plainRegex interleavedSpecs = .ok rules ∧
      rules.matchDomain "A.b" = .ok (some (.socks5 "127.0.0.1:1080" none)) ∧
      rules.matchDomain "xA.b" = .ok (some (.http "127.0.0.1:8080" none)) ∧
      rules.matchDomain "a.c" = .ok none :=
  have hrules : RuleMatcher.fromSpecs plainRegex interleavedSpecs = .ok _ := rfl
  have first := matchDomain_first_matching_spec plainRegex_setLaw plainRegex_literalLaw hrules
  ⟨_, hrules,
    (first.2.1 "A.b" _).mpr ⟨["ip:10.1.2.3=direct"], _, _, rfl, by decide, by decide⟩,
    (first.2.1 "xA.b" _).mpr ⟨interleavedSpecs.take 3, _, _, rfl, by decide, by decide⟩,
    (first.2.2.1 "a.c").mpr (by decide)⟩

end Scproxy
