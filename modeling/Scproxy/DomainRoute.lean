import Scproxy.Config

namespace Scproxy

def RegexCrate.isMatch (regex : RegexCrate) (pattern host : String) : Bool :=
  match regex.compile pattern with
  | .ok test => test host
  | .error _ => false

/-- What is assumed of the `regex` crate: a set yields the indices of exactly
the patterns that match on their own, in increasing order. -/
def RegexCrate.SetLaw (regex : RegexCrate) : Prop :=
  ∀ patterns set host, regex.compileSet patterns = .ok set →
    set host = (List.range patterns.length).filter fun i =>
      (patterns[i]?).any (regex.isMatch · host)

structure DomainRule where
  pattern : String
  route : ProxyConfig
  deriving DecidableEq

def domainRule (regex : RegexCrate) : RuleMatch × MatchAction → Option DomainRule
  | (.domain name, action) => some ⟨"(?i)^" ++ regex.escape name ++ "$", action.proxy⟩
  | (.domainRegex pattern, action) => some ⟨pattern, action.proxy⟩
  | (.ip _, _) => none
  | (.cidr _ _, _) => none

/-- The domain rules among accepted specs, in command-line order. -/
def domainRules (regex : RegexCrate) (specs : List String) : List DomainRule :=
  specs.filterMap fun spec =>
    match parseSpec regex spec with
    | .ok rule => domainRule regex rule
    | .error _ => none

/-- The first matching domain rule, then the default route. -/
def domainRoute (regex : RegexCrate) (specs : List String) (defaultProxy : ProxyConfig)
    (host : String) : ProxyConfig :=
  match (domainRules regex specs).find? fun rule => regex.isMatch rule.pattern host with
  | some rule => rule.route
  | none => defaultProxy

theorem builder_add_domains (regex : RegexCrate) (b : RuleMatcher.Builder)
    (rule : RuleMatch × MatchAction) :
    (b.add regex rule.2 rule.1).domainPatterns =
        b.domainPatterns ++ (domainRule regex rule).toList.map (·.pattern) ∧
      (b.add regex rule.2 rule.1).domainActions =
        b.domainActions ++ (domainRule regex rule).toList.map (⟨·.route⟩) := by
  obtain ⟨matched, action⟩ := rule
  cases matched with
  | ip addr => exact ⟨(List.append_nil _).symm, (List.append_nil _).symm⟩
  | cidr network prefixLen => exact ⟨(List.append_nil _).symm, (List.append_nil _).symm⟩
  | domain name => exact ⟨rfl, rfl⟩
  | domainRegex pattern => exact ⟨rfl, rfl⟩

theorem builder_foldlM_domains {regex : RegexCrate} {specs : List String}
    {b b' : RuleMatcher.Builder}
    (h : specs.foldlM (RuleMatcher.Builder.step regex) b = .ok b') :
    b'.domainPatterns = b.domainPatterns ++ (domainRules regex specs).map (·.pattern) ∧
      b'.domainActions = b.domainActions ++ (domainRules regex specs).map (⟨·.route⟩) := by
  induction specs generalizing b with
  | nil =>
    cases Except.ok.inj h
    exact ⟨(List.append_nil _).symm, (List.append_nil _).symm⟩
  | cons spec specs ih =>
    rw [List.foldlM_cons] at h
    obtain ⟨next, hstep, h⟩ := bind_eq_ok.mp h
    obtain ⟨rule, hrule, hnext⟩ := bind_eq_ok.mp hstep
    cases Except.ok.inj hnext
    have hsplit : domainRules regex (spec :: specs) =
        (domainRule regex rule).toList ++ domainRules regex specs := by
      simp only [domainRules, List.filterMap_cons, hrule]
      cases domainRule regex rule with
      | none => rfl
      | some r => rfl
    obtain ⟨hpatterns, hactions⟩ := ih h
    obtain ⟨haddPatterns, haddActions⟩ := builder_add_domains regex b rule
    rw [hpatterns, hactions, haddPatterns, haddActions, hsplit]
    simp only [List.map_append, List.append_assoc, and_self]

theorem range_find?_eq_find? {α : Type} (l : List α) (p : α → Bool) :
    ((List.range l.length).find? fun i => (l[i]?).any p).bind (l[·]?) = l.find? p := by
  induction l with
  | nil => rfl
  | cons a l ih =>
    rw [List.length_cons, List.range_succ_eq_map, List.find?_cons, List.find?_cons]
    simp only [List.getElem?_cons_zero, Option.any_some]
    cases p a with
    | true => rfl
    | false =>
      rw [← ih, List.find?_map]
      simp only [Function.comp_def, List.getElem?_cons_succ, Option.bind_map]

theorem matchDomain_eq_find? {regex : RegexCrate} {specs : List String} {rules : RuleMatcher}
    (h : RuleMatcher.fromSpecs regex specs = .ok rules) (law : regex.SetLaw) (host : String) :
    rules.matchDomain host = .ok (((domainRules regex specs).find? fun rule =>
      regex.isMatch rule.pattern host).map (·.route)) := by
  obtain ⟨b, hb, h⟩ := bind_eq_ok.mp h
  obtain ⟨domains, hdomains, h⟩ := bind_eq_ok.mp h
  cases Except.ok.inj h
  obtain ⟨hpatterns, hactions⟩ := builder_foldlM_domains hb
  simp only [List.nil_append] at hpatterns hactions
  unfold RuleMatcher.compileDomains at hdomains
  have hfind := range_find?_eq_find? (domainRules regex specs) fun rule =>
    regex.isMatch rule.pattern host
  split at hdomains
  next hnil =>
    cases Except.ok.inj hdomains
    rw [hpatterns, List.map_eq_nil_iff] at hnil
    rw [hnil]
    rfl
  next =>
    obtain ⟨set, hset, hsome⟩ := bind_eq_ok.mp hdomains
    cases Except.ok.inj hsome
    have hhead : (set host).head? = (List.range (domainRules regex specs).length).find? fun i =>
        ((domainRules regex specs)[i]?).any fun rule => regex.isMatch rule.pattern host := by
      rw [law _ set host (withContext_rootCause_eq_ok hset), List.head?_filter, hpatterns,
        List.length_map]
      simp only [List.getElem?_map, Option.any_map]
    simp only [RuleMatcher.matchDomain, Option.bind_some, hhead]
    rw [← hfind]
    split
    next hnone =>
      rw [hnone]
      rfl
    next i hi =>
      have hany := List.find?_some hi
      cases hrule : (domainRules regex specs)[i]? with
      | none =>
        rw [hrule] at hany
        cases hany
      | some rule =>
        have hindex : index b.domainActions i = .ok ⟨rule.route⟩ := by
          rw [index_eq_ok, hactions, List.getElem?_map, hrule]
          rfl
        rw [hi, hindex, Option.bind_some, hrule]
        rfl

theorem proxyFor_domain_eq_domainRoute {regex : RegexCrate} {specs : List String}
    {rules : RuleMatcher} (h : RuleMatcher.fromSpecs regex specs = .ok rules)
    (law : regex.SetLaw) (defaultProxy : ProxyConfig) (command : List String) (host : String)
    (port : UInt16) :
    Config.proxyFor ⟨defaultProxy, command, rules⟩ (.domain host port) =
      .ok (domainRoute regex specs defaultProxy host) := by
  simp only [Config.proxyFor, matchDomain_eq_find? h law, domainRoute]
  cases (domainRules regex specs).find? fun rule => regex.isMatch rule.pattern host with
  | some rule => rfl
  | none => rfl

end Scproxy
