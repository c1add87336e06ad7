import AmneziaBox.Guarantees.RuleSemantics
import AmneziaBox.Library.Codec
import AmneziaBox.Source.AdGuard.Convertor

/-!
# Which domains a converted filter list matches

An AdGuard list blocks a domain if no important exception matches it and either an important
line does, or an ordinary line does and no ordinary exception. `ToOptions` writes this as up to
three logical rules around a default rule, one for each kind of line that occurs. The default rule
is always there; without ordinary blocking lines it has no items, is valid all the same and
matches everything.
-/
namespace AmneziaBox.Guarantees.AdGuardPrecedence
open Library List
open Source.Adapter Source.Rule Source.AdGuard RuleSemantics

variable (ext : Externals)

/-- The regular expression, if it is one, matches the host. -/
def regexMatches (expression : Text) (host : String) : Bool :=
  ((ext.compile expression).map fun matcher => matcher host).getD false

/-- A line matches a host as its matcher does. -/
def lineMatches (host : String) (line : AgdguardRuleLine) : Bool :=
  if line.isRegexp then regexMatches ext (mapDomain line) (toLower ext host)
  else ext.adGuardMatcher [mapDomain line] (toLower ext host)

/-- Some line of the kind matches the host. -/
def someMatches (lines : List AgdguardRuleLine) (isImportant isExclude : Bool) (host : String) :
    Bool :=
  lines.any fun line =>
    line.isImportant == isImportant && line.isExclude == isExclude && lineMatches ext host line

/-- The precedence of the four kinds of lines. -/
def blocked (lines : List AgdguardRuleLine) (host : String) : Bool :=
  !someMatches ext lines true true host &&
    (someMatches ext lines true false host ||
      (someMatches ext lines false false host && !someMatches ext lines false true host))

/-- `NewHeadlessRule` accepts the rule, and the rule matches as the lines say. -/
def Obeys (rule : RuleOptions) (lines : List AgdguardRuleLine) : Prop :=
  ∃ built, newHeadlessRule ext rule = .ok built ∧
    ∀ input : MatchInput, domainHost input ≠ "" →
      (HeadlessRule.matchOn built { toMatchInput := input }).1 = blocked ext lines (domainHost input)

/-! ## The meaning of the options -/

/-- Some pattern of the group matches the domain of the metadata. -/
def patternsMatch (patterns : Patterns) : RuleItem :=
  hostItem ext fun host =>
    patterns.domain.any (fun line => ext.adGuardMatcher [line] host) ||
      patterns.domainRegex.any fun expression => regexMatches ext expression host

def Compiles (patterns : Patterns) : Prop :=
  ∀ expression ∈ patterns.domainRegex, (ext.compile expression).isSome

variable {ext} {patterns : Patterns}

theorem patternsMatch_of_isEmpty (none : patterns.isEmpty = true) (input : MatchInput) :
    patternsMatch ext patterns input = false := by
  simp only [Patterns.isEmpty, Bool.and_eq_true, List.isEmpty_iff] at none
  simp [patternsMatch, hostItem, none.1, none.2]

/-- The documented value of a rule is what `Match` returns for fresh metadata. -/
theorem matchOn_fresh (rule : HeadlessRule) (input : MatchInput) :
    (rule.matchOn { toMatchInput := input }).1 =
      documentedHeadless { toMatchInput := input } rule := by
  have ready : Ready { toMatchInput := input } := ⟨⟨rfl, rfl, rfl⟩, rfl⟩
  have settles := rule.matchOn_settles { toMatchInput := input } rfl
  rw [verdict_eq_documentedHeadless ready.fresh rule fun leaf _ => ready.agrees leaf] at settles
  rw [settles_ofBool ready settles]

variable {expressions : List Text}

theorem compileAll_ok {index : Nat} {matchers : List (String → Bool)}
    (compiled : compileAll ext index expressions = .ok matchers) :
    (∀ expression ∈ expressions, (ext.compile expression).isSome) ∧
      ∀ host, (matchers.any fun matcher => matcher host) =
        expressions.any fun expression => regexMatches ext expression host := by
  induction expressions generalizing index matchers with
  | nil =>
    cases compiled
    exact ⟨nofun, fun _ => rfl⟩
  | cons expression rest ih =>
    unfold compileAll at compiled
    cases first : ext.compile expression with
    | none => simp [first] at compiled
    | some matcher =>
      rw [first] at compiled
      obtain ⟨more, others, rfl⟩ := except_map_ok compiled
      obtain ⟨all, same⟩ := ih others
      refine ⟨?_, fun host => ?_⟩
      · simpa [first] using all
      · simp [same host, regexMatches, first]

theorem compileAll_of_compiles (index : Nat)
    (compiles : ∀ expression ∈ expressions, (ext.compile expression).isSome) :
    ∃ matchers, compileAll ext index expressions = .ok matchers := by
  induction expressions generalizing index with
  | nil => exact ⟨[], rfl⟩
  | cons expression rest ih =>
    obtain ⟨matcher, first⟩ := Option.isSome_iff_exists.mp (compiles expression (by simp))
    obtain ⟨matchers, others⟩ := ih (index + 1) fun later member => compiles later (by simp [member])
    exact ⟨matcher :: matchers, by simp [compileAll, first, others, Except.map]⟩

/-- A default rule with items for the domain alone. -/
theorem documentedDefault_of_items (items : List RuleItem) (invert : Bool)
    (metadata : InboundContext) :
    documentedDefault (fun item _ => item.elim) metadata
        ({ destinationAddressItems := items, invert := invert } : DefaultHeadlessRule) =
      if items.isEmpty then true
      else (items.any fun item => item metadata.toMatchInput) ^^ invert := by
  cases items with
  | nil => rfl
  | cons item rest =>
    simp [documentedDefault, AbstractDefaultRule.hasNoItems, documentedInner,
      AbstractDefaultRule.matchItems, groupAnswers, GroupAnswers.hold, groupHolds]

variable (ext) in
/-- The items built for a list of texts: none for an empty list, otherwise one that asks whether
some text matches. -/
structure ItemsFor (matcher : Text → String → Bool) (texts : List Text) (items : List RuleItem) :
    Prop where
  isEmpty : items.isEmpty = texts.isEmpty
  any : ∀ input, (items.any fun item => item input) =
    hostItem ext (fun host => texts.any fun text => matcher text host) input

theorem itemOf_ok {matcher : Text → String → Bool} {texts : List Text}
    {build : List Text → Except RuleError RuleItem} {items : List RuleItem}
    (built : itemOf (some texts) build = .ok items)
    (stands : ∀ item, build texts = .ok item → ∀ input,
      item input = hostItem ext (fun host => texts.any fun text => matcher text host) input) :
    ItemsFor ext matcher texts items := by
  cases texts with
  | nil =>
    cases built
    exact ⟨rfl, fun input => (ite_self false).symm⟩
  | cons first rest =>
    obtain ⟨item, made, rfl⟩ := except_map_ok built
    exact ⟨rfl, fun input => by simpa using stands item made input⟩

theorem itemOf_newDomainRegexItem {items : List RuleItem}
    (built : itemOf (some expressions) (newDomainRegexItem ext) = .ok items) :
    (∀ expression ∈ expressions, (ext.compile expression).isSome) ∧
      ItemsFor ext (regexMatches ext) expressions items := by
  constructor
  · cases expressions with
    | nil => exact nofun
    | cons first rest =>
      obtain ⟨item, made, -⟩ := except_map_ok built
      obtain ⟨matchers, compiled, -⟩ := except_map_ok made
      exact (compileAll_ok compiled).1
  · apply itemOf_ok built
    intro item made input
    obtain ⟨matchers, compiled, rfl⟩ := except_map_ok made
    simp [(compileAll_ok compiled).2]

theorem itemOf_newDomainRegexItem_of_compiles
    (compiles : ∀ expression ∈ expressions, (ext.compile expression).isSome) :
    ∃ items, itemOf (some expressions) (newDomainRegexItem ext) = .ok items := by
  obtain ⟨matchers, compiled⟩ := compileAll_of_compiles 0 compiles
  unfold itemOf
  split
  · exact ⟨[], rfl⟩
  · refine ⟨[hostItem ext fun host => matchers.any fun matcher => matcher host], ?_⟩
    simp [newDomainRegexItem, Slice.elements, compiled, Except.map]

variable (ext) in
theorem itemOf_newAdGuardDomainItem (lines : List Text) :
    ∃ items, (itemOf (some lines) fun lines => .ok (newAdGuardDomainItem ext lines)) = .ok items ∧
      ItemsFor ext (fun line => ext.adGuardMatcher [line]) lines items := by
  have made : ∃ items,
      (itemOf (some lines) fun lines => .ok (newAdGuardDomainItem ext lines)) = .ok items := by
    unfold itemOf
    split
    · exact ⟨_, rfl⟩
    · exact ⟨_, rfl⟩
  obtain ⟨items, built⟩ := made
  refine ⟨items, built, itemOf_ok built ?_⟩
  rintro item ⟨⟩ input
  simp only [newAdGuardDomainItem, hostItem, ext.adGuardMatcher_any lines]

theorem newDefaultHeadlessRule_options (patterns : Patterns) (invert : Bool) :
    newDefaultHeadlessRule ext (patterns.options invert) = do
      let regexItems ← itemOf (some patterns.domainRegex) (newDomainRegexItem ext)
      let adGuardItems ← itemOf (some patterns.domain) fun lines =>
        .ok (newAdGuardDomainItem ext lines)
      return { destinationAddressItems := regexItems ++ adGuardItems, invert := invert } := rfl

variable {invert : Bool}

/-- The default rule of a group: without patterns it matches everything, inverted or not. -/
theorem newDefaultHeadlessRule_ok {rule : DefaultHeadlessRule}
    (built : newDefaultHeadlessRule ext (patterns.options invert) = .ok rule) :
    Compiles ext patterns ∧ ∀ input : MatchInput,
      documentedDefault (fun item _ => item.elim) { toMatchInput := input } rule =
        if patterns.isEmpty then true else patternsMatch ext patterns input ^^ invert := by
  obtain ⟨adGuardItems, adGuardBuilt, adGuard⟩ :=
    itemOf_newAdGuardDomainItem ext patterns.domain
  rw [newDefaultHeadlessRule_options, adGuardBuilt] at built
  obtain ⟨regexItems, regexBuilt, built⟩ := except_bind_ok built
  cases built
  obtain ⟨compiles, regex⟩ := itemOf_newDomainRegexItem regexBuilt
  refine ⟨compiles, fun input => ?_⟩
  have none : (regexItems ++ adGuardItems).isEmpty = patterns.isEmpty := by
    rw [Patterns.isEmpty, ← regex.isEmpty, ← adGuard.isEmpty]
    cases regexItems <;> simp
  have some : ((regexItems ++ adGuardItems).any fun item => item input) =
      patternsMatch ext patterns input := by
    rw [any_append, regex.any, adGuard.any, patternsMatch, hostItem, hostItem, hostItem]
    split
    · rfl
    · exact Bool.or_comm _ _
  rw [documentedDefault_of_items, none, some]

theorem newDefaultHeadlessRule_of_compiles (invert : Bool) (compiles : Compiles ext patterns) :
    ∃ rule, newDefaultHeadlessRule ext (patterns.options invert) = .ok rule := by
  obtain ⟨adGuardItems, adGuardBuilt, -⟩ := itemOf_newAdGuardDomainItem ext patterns.domain
  obtain ⟨regexItems, regexBuilt⟩ := itemOf_newDomainRegexItem_of_compiles compiles
  rw [newDefaultHeadlessRule_options, adGuardBuilt, regexBuilt]
  exact ⟨_, rfl⟩

/-! ## The logical rules around it -/

variable (ext) in
/-- `NewHeadlessRule` accepts the options and the rule answers `value`. -/
structure Means (options : RuleOptions) (value : MatchInput → Bool) : Prop where
  valid : isValid options = true
  built : ∃ rule, newHeadlessRule ext options = .ok rule
  answers : ∀ rule, newHeadlessRule ext options = .ok rule →
    ∀ input, documentedHeadless { toMatchInput := input } rule = value input

theorem options_isValid (patterns : Patterns) (invert : Bool) :
    (patterns.options invert).isValid = true := by
  simp [DefaultOptions.isValid, Patterns.options]

variable {rule : HeadlessRule}

theorem newHeadlessRule_default
    (built : newHeadlessRule ext (.default (patterns.options invert)) = .ok rule) :
    ∃ leaf, newDefaultHeadlessRule ext (patterns.options invert) = .ok leaf ∧
      rule = .default leaf := by
  rw [newHeadlessRule, if_pos (options_isValid patterns invert)] at built
  obtain ⟨leaf, made, same⟩ := except_map_ok built
  exact ⟨leaf, made, same.symm⟩

theorem means_default (invert : Bool) (compiles : Compiles ext patterns) :
    Means ext (.default (patterns.options invert)) fun input =>
      if patterns.isEmpty then true else patternsMatch ext patterns input ^^ invert where
  valid := by rw [isValid, options_isValid]
  built := by
    obtain ⟨leaf, made⟩ := newDefaultHeadlessRule_of_compiles invert compiles
    exact ⟨.default leaf, by rw [newHeadlessRule, if_pos (options_isValid patterns invert), made]; rfl⟩
  answers rule built input := by
    obtain ⟨leaf, made, rfl⟩ := newHeadlessRule_default built
    exact (newDefaultHeadlessRule_ok made).2 input

variable {mode : LogicalType}

theorem newHeadlessRule_pair {first second : RuleOptions}
    (built : newHeadlessRule ext (.logical mode [first, second] false) = .ok rule) :
    ∃ left right, newHeadlessRule ext first = .ok left ∧ newHeadlessRule ext second = .ok right ∧
      rule = .logical mode [left, right] false := by
  rw [newHeadlessRule] at built
  split at built
  · cases leftBuilt : newHeadlessRule ext first with
    | error err => simp [newSubRules, leftBuilt, Except.map] at built
    | ok left =>
      cases rightBuilt : newHeadlessRule ext second with
      | error err => simp [newSubRules, leftBuilt, rightBuilt, Except.map] at built
      | ok right =>
        simp only [newSubRules, leftBuilt, rightBuilt, Except.map, Except.ok.injEq] at built
        exact ⟨left, right, rfl, rfl, built.symm⟩
  · cases built

theorem Means.pair {first second : RuleOptions} {left right : MatchInput → Bool}
    (one : Means ext first left) (two : Means ext second right) :
    Means ext (.logical mode [first, second] false) fun input =>
      match mode with
      | .and => left input && right input
      | .or => left input || right input where
  valid := by simp [isValid, allValid, one.valid, two.valid]
  built := by
    obtain ⟨leftRule, leftBuilt⟩ := one.built
    obtain ⟨rightRule, rightBuilt⟩ := two.built
    refine ⟨.logical mode [leftRule, rightRule] false, ?_⟩
    simp [newHeadlessRule, allValid, one.valid, two.valid, newSubRules, leftBuilt, rightBuilt,
      Except.map]
  answers rule built input := by
    obtain ⟨leftRule, rightRule, leftBuilt, rightBuilt, rfl⟩ := newHeadlessRule_pair built
    have leftValue := one.answers leftRule leftBuilt input
    have rightValue := two.answers rightRule rightBuilt input
    unfold documentedHeadless at leftValue rightValue ⊢
    cases mode with
    | and | or =>
      simp only [documentedTree, documentedTrees, leftValue, rightValue]
      simp

variable {value : MatchInput → Bool}

theorem Means.congr {options : RuleOptions} {other : MatchInput → Bool}
    (means : Means ext options value) (same : ∀ input, value input = other input) :
    Means ext options other :=
  ⟨means.valid, means.built, fun rule built input =>
    (means.answers rule built input).trans (same input)⟩

variable {current : RuleOptions}

theorem Means.exceptions (means : Means ext current value) (compiles : Compiles ext patterns) :
    Means ext (wrap .and patterns true current) fun input =>
      !patternsMatch ext patterns input && value input := by
  unfold wrap
  split
  · rename_i none
    exact means.congr fun input => by simp [patternsMatch_of_isEmpty none]
  · rename_i some
    refine ((means_default true compiles).pair means).congr fun input => ?_
    simp [some]

theorem Means.additions (means : Means ext current value) (compiles : Compiles ext patterns) :
    Means ext (wrap .or patterns false current) fun input =>
      patternsMatch ext patterns input || value input := by
  unfold wrap
  split
  · rename_i none
    exact means.congr fun input => by simp [patternsMatch_of_isEmpty none]
  · rename_i some
    refine ((means_default false compiles).pair means).congr fun input => ?_
    simp [some]

theorem compiles_of_wrap
    (built : newHeadlessRule ext (wrap mode patterns invert current) = .ok rule) :
    Compiles ext patterns ∧ ∃ inner, newHeadlessRule ext current = .ok inner := by
  unfold wrap at built
  split at built
  · rename_i none
    simp only [Patterns.isEmpty, Bool.and_eq_true, List.isEmpty_iff] at none
    exact ⟨by simp [Compiles, none.2], rule, built⟩
  · obtain ⟨left, right, leftBuilt, rightBuilt, -⟩ := newHeadlessRule_pair built
    obtain ⟨leaf, made, -⟩ := newHeadlessRule_default leftBuilt
    exact ⟨(newDefaultHeadlessRule_ok made).1, right, rightBuilt⟩

variable (ext) in
/-- Every expression of the four groups compiles. -/
structure GroupsCompile (groups : Groups) : Prop where
  important : Compiles ext groups.important
  importantExclude : Compiles ext groups.importantExclude
  ordinary : Compiles ext groups.ordinary
  exclude : Compiles ext groups.exclude

theorem groupsCompile_of_built {groups : Groups}
    (built : newHeadlessRule ext groups.rule = .ok rule) : GroupsCompile ext groups := by
  obtain ⟨importantExclude, _, built⟩ := compiles_of_wrap built
  obtain ⟨important, _, built⟩ := compiles_of_wrap built
  obtain ⟨exclude, _, built⟩ := compiles_of_wrap built
  obtain ⟨leaf, made, -⟩ := newHeadlessRule_default built
  exact ⟨important, importantExclude, (newDefaultHeadlessRule_ok made).1, exclude⟩

/-- The rule of the groups; the default rule in its middle matches all if it has no patterns. -/
theorem GroupsCompile.means {groups : Groups} (compile : GroupsCompile ext groups) :
    Means ext groups.rule fun input =>
      !patternsMatch ext groups.importantExclude input &&
        (patternsMatch ext groups.important input ||
          (!patternsMatch ext groups.exclude input &&
            (groups.ordinary.isEmpty || patternsMatch ext groups.ordinary input))) := by
  refine ((((means_default false compile.ordinary).exceptions compile.exclude).additions
    compile.important).exceptions compile.importantExclude).congr fun input => ?_
  cases groups.ordinary.isEmpty <;> simp

/-- What the built rule returns. -/
theorem GroupsCompile.answer {groups : Groups} (compile : GroupsCompile ext groups)
    {built : HeadlessRule} (accepted : newHeadlessRule ext groups.rule = .ok built)
    (input : MatchInput) :
    (HeadlessRule.matchOn built { toMatchInput := input }).1 =
      (!patternsMatch ext groups.importantExclude input &&
        (patternsMatch ext groups.important input ||
          (!patternsMatch ext groups.exclude input &&
            (groups.ordinary.isEmpty || patternsMatch ext groups.ordinary input)))) := by
  rw [matchOn_fresh, compile.means.answers built accepted input]

/-! ## From the lines to the groups -/

variable {lines : List AgdguardRuleLine}

theorem mem_select {isImportant isExclude isRegexp : Bool} {text : Text} :
    text ∈ select lines isImportant isExclude isRegexp ↔ ∃ line ∈ lines,
      line.isImportant = isImportant ∧ line.isExclude = isExclude ∧ line.isRegexp = isRegexp ∧
        mapDomain line = text := by
  simp only [select, mem_map, mem_filter, Bool.and_eq_true, beq_iff_eq]
  constructor
  · rintro ⟨line, ⟨member, ⟨important, regexp⟩, exclude⟩, same⟩
    exact ⟨line, member, important, exclude, regexp, same⟩
  · rintro ⟨line, member, important, exclude, regexp, same⟩
    exact ⟨line, ⟨member, ⟨important, regexp⟩, exclude⟩, same⟩

theorem patternsMatch_patternsOf (lines : List AgdguardRuleLine) (isImportant isExclude : Bool)
    {input : MatchInput} (named : domainHost input ≠ "") :
    patternsMatch ext (patternsOf lines isImportant isExclude) input =
      someMatches ext lines isImportant isExclude (domainHost input) := by
  rw [Bool.eq_iff_iff, patternsMatch, hostItem, if_neg named, someMatches]
  simp only [patternsOf, Bool.or_eq_true, any_eq_true, mem_select, Bool.and_eq_true, beq_iff_eq]
  constructor
  · rintro (⟨_, ⟨line, member, important, exclude, regexp, rfl⟩, found⟩ |
      ⟨_, ⟨line, member, important, exclude, regexp, rfl⟩, found⟩)
    · exact ⟨line, member, ⟨important, exclude⟩, by rwa [lineMatches, regexp]⟩
    · exact ⟨line, member, ⟨important, exclude⟩, by rwa [lineMatches, regexp]⟩
  · rintro ⟨line, member, ⟨important, exclude⟩, found⟩
    cases regexp : line.isRegexp with
    | false =>
      refine .inl ⟨_, ⟨line, member, important, exclude, regexp, rfl⟩, ?_⟩
      rwa [lineMatches, regexp] at found
    | true =>
      refine .inr ⟨_, ⟨line, member, important, exclude, regexp, rfl⟩, ?_⟩
      rwa [lineMatches, regexp] at found

theorem patternsOf_isEmpty_iff (lines : List AgdguardRuleLine) (isImportant isExclude : Bool) :
    (patternsOf lines isImportant isExclude).isEmpty = true ↔
      ∀ line ∈ lines, ¬(line.isImportant = isImportant ∧ line.isExclude = isExclude) := by
  simp only [Patterns.isEmpty, patternsOf, Bool.and_eq_true, List.isEmpty_iff,
    List.eq_nil_iff_forall_not_mem, mem_select]
  constructor
  · rintro ⟨noDomain, noRegex⟩ line member ⟨important, exclude⟩
    cases regexp : line.isRegexp with
    | false => exact noDomain _ ⟨line, member, important, exclude, regexp, rfl⟩
    | true => exact noRegex _ ⟨line, member, important, exclude, regexp, rfl⟩
  · intro none
    constructor
    · rintro _ ⟨line, member, important, exclude, -⟩
      exact none line member ⟨important, exclude⟩
    · rintro _ ⟨line, member, important, exclude, -⟩
      exact none line member ⟨important, exclude⟩

theorem someMatches_of_isEmpty {isImportant isExclude : Bool}
    (none : (patternsOf lines isImportant isExclude).isEmpty = true) (host : String) :
    someMatches ext lines isImportant isExclude host = false := by
  rw [patternsOf_isEmpty_iff] at none
  simp only [someMatches, any_eq_false, Bool.and_eq_true, beq_iff_eq]
  intro line member found
  exact none line member found.1

variable (ext) in
/-- Every regular expression of the list compiles. -/
def LinesCompile (lines : List AgdguardRuleLine) : Prop :=
  ∀ line ∈ lines, line.isRegexp = true → (ext.compile (mapDomain line)).isSome = true

theorem compiles_patternsOf (compile : LinesCompile ext lines) (isImportant isExclude : Bool) :
    Compiles ext (patternsOf lines isImportant isExclude) := by
  intro expression member
  obtain ⟨line, inside, -, -, regexp, rfl⟩ := mem_select.mp member
  exact compile line inside regexp

theorem groupsCompile_iff (lines : List AgdguardRuleLine) :
    GroupsCompile ext (groupsOf lines) ↔ LinesCompile ext lines := by
  constructor
  · intro compile line member regexp
    have inGroup : ∀ isImportant isExclude, line.isImportant = isImportant →
        line.isExclude = isExclude →
        mapDomain line ∈ (patternsOf lines isImportant isExclude).domainRegex :=
      fun _ _ important exclude => mem_select.mpr ⟨line, member, important, exclude, regexp, rfl⟩
    cases important : line.isImportant <;> cases exclude : line.isExclude
    · exact compile.ordinary _ (inGroup _ _ important exclude)
    · exact compile.exclude _ (inGroup _ _ important exclude)
    · exact compile.important _ (inGroup _ _ important exclude)
    · exact compile.importantExclude _ (inGroup _ _ important exclude)
  · intro compile
    exact ⟨compiles_patternsOf compile _ _, compiles_patternsOf compile _ _,
      compiles_patternsOf compile _ _, compiles_patternsOf compile _ _⟩

/-! ## The precedence -/

variable (ext) in
/-- With no ordinary blocking line the rule in the middle matches all, which is right only for
domains that another line decides. -/
def Decided (lines : List AgdguardRuleLine) : Prop :=
  (∃ line ∈ lines, line.isImportant = false ∧ line.isExclude = false) ∨
    ∀ host, host ≠ "" → (someMatches ext lines true true host || someMatches ext lines true false host ||
      someMatches ext lines false true host) = true

/-- What the rule of a list answers, by the lines that match. -/
theorem GroupsCompile.answer_lines (compile : GroupsCompile ext (groupsOf lines)) {built : HeadlessRule}
    (accepted : newHeadlessRule ext (groupsOf lines).rule = .ok built) {input : MatchInput}
    (named : domainHost input ≠ "") :
    (HeadlessRule.matchOn built { toMatchInput := input }).1 =
      (!someMatches ext lines true true (domainHost input) &&
        (someMatches ext lines true false (domainHost input) ||
          (!someMatches ext lines false true (domainHost input) &&
            ((patternsOf lines false false).isEmpty ||
              someMatches ext lines false false (domainHost input))))) := by
  rw [compile.answer accepted]
  simp [groupsOf, patternsMatch_patternsOf lines _ _ named]

theorem obeys_groups_iff (lines : List AgdguardRuleLine) :
    Obeys ext (groupsOf lines).rule lines ↔ LinesCompile ext lines ∧ Decided ext lines := by
  constructor
  · rintro ⟨built, accepted, obeys⟩
    have compile := groupsCompile_of_built accepted
    refine ⟨(groupsCompile_iff lines).mp compile, ?_⟩
    by_cases none : (patternsOf lines false false).isEmpty = true
    · right
      intro host named
      have here : domainHost { domain := host } = host := if_pos named
      have answer := obeys { domain := host } (by rwa [here])
      rw [compile.answer_lines accepted (by rwa [here]), here, blocked, none,
        someMatches_of_isEmpty none] at answer
      revert answer
      cases someMatches ext lines true true host <;> cases someMatches ext lines true false host <;>
        cases someMatches ext lines false true host <;> decide
    · left
      simpa [patternsOf_isEmpty_iff] using none
  · rintro ⟨compile, decided⟩
    have groups := (groupsCompile_iff lines).mpr compile
    obtain ⟨built, accepted⟩ := groups.means.built
    refine ⟨built, accepted, fun input named => ?_⟩
    rw [groups.answer_lines accepted named, blocked]
    rcases decided with ⟨line, member, ordinary⟩ | decided
    · have some : (patternsOf lines false false).isEmpty = false := by
        rw [← Bool.not_eq_true, patternsOf_isEmpty_iff]
        exact fun none => none line member ordinary
      rw [some, Bool.false_or, Bool.and_comm (!someMatches ext lines false true _)]
    · have other := decided (domainHost input) named
      revert other
      cases someMatches ext lines true true (domainHost input) <;>
        cases someMatches ext lines true false (domainHost input) <;>
        cases someMatches ext lines false true (domainHost input) <;> simp

theorem toOptions_eq {text : Text} (parsed : ruleLines ext text = .ok lines) (some : lines ≠ []) :
    toOptions ext text = .ok [ruleOf lines] := by
  unfold toOptions
  rw [parsed]
  cases lines with
  | nil => exact absurd rfl some
  | cons first rest => rfl

/-- For every text that is accepted and is not a plain list of domains: the rule is accepted and
follows the precedence exactly when the expressions compile and there is an ordinary blocking
line, or the other lines decide every domain. -/
theorem precedence_iff {text : Text} {options : List RuleOptions} {lines : List AgdguardRuleLine}
    (converted : toOptions ext text = .ok options) (parsed : ruleLines ext text = .ok lines)
    (mixed : lines.all AgdguardRuleLine.isRawDomain = false) :
    (∃ rule, options = [rule] ∧ Obeys ext rule lines) ↔
      LinesCompile ext lines ∧ Decided ext lines := by
  have single : options = [(groupsOf lines).rule] := by
    have some : lines ≠ [] := by
      rintro rfl
      cases mixed
    rw [toOptions_eq parsed some, ruleOf, if_neg (by simp [mixed])] at converted
    exact (Except.ok.inj converted).symm
  rw [← obeys_groups_iff, single]
  constructor
  · rintro ⟨rule, same, obeys⟩
    cases same
    exact obeys
  · intro obeys
    exact ⟨_, rfl, obeys⟩

/-! ## A list with important lines only -/

/-- A line without wildcards: `||` stands for the start or a dot, `|` for the start and `^` for the
end of the host. -/
def plainMatch (line : Text) (host : String) : Bool :=
  let core := trimEnd '^' (line.dropWhile (· == '|'))
  host.toList.tails.any fun tail =>
    core.isPrefixOf tail && (tail.length = core.length || line.getLast? ≠ some '^') &&
      (tail.length = host.toList.length || line.head? ≠ some '|' ||
        (line.drop 1).head? = some '|' &&
          ((host.toList.drop (host.toList.length - tail.length - 1)).head? = some '.'))

/-- The other packages, as far as the examples need them: an address is one of the two unspecified
ones, an expression is a literal text. -/
def plainExternals : Externals where
  isUnspecified text := text == "0.0.0.0".toList || text == "::".toList
  lowerTable := id
  adGuardMatcher lines host := lines.any fun line => plainMatch line host
  adGuardMatcher_any lines host := by simp
  compile expression := some fun host =>
    host.toList.tails.any fun tail => expression.isPrefixOf tail

/-- What the rule of a text answers for a domain. -/
def answerOf (ext : Externals) (text : Text) (domain : String) : Option Bool :=
  match toOptions ext text with
  | .ok [rule] =>
    match newHeadlessRule ext rule with
    | .ok built => some (HeadlessRule.matchOn built { domain := domain }).1
    | .error _ => none
  | _ => none

def ordinaryList : Text := "||a.com^\n@@||x.a.com^\n".toList

def ordinaryLines : List AgdguardRuleLine :=
  [{ ruleLine := "a.com".toList, isSuffix := true, hasEnd := true },
    { ruleLine := "x.a.com".toList, isExclude := true, isSuffix := true, hasEnd := true }]

/-- A blocking line and an exception to it. -/
theorem precedence_ordinary :
    ∃ rule, toOptions plainExternals ordinaryList = .ok [rule] ∧
      Obeys plainExternals rule ordinaryLines := by
  have parsed : ruleLines plainExternals ordinaryList = .ok ordinaryLines := by decide +kernel
  have converted := toOptions_eq parsed (by decide)
  obtain ⟨rule, same, obeys⟩ := (precedence_iff converted parsed (by decide)).mpr
    ⟨fun _ _ _ => rfl, .inl ⟨_, mem_cons_self, rfl, rfl⟩⟩
  exact ⟨rule, same ▸ converted, obeys⟩

def importantOnly : Text := "||a.com^$important\n".toList

/-- The list blocks `a.com`, and its rule matches every domain. -/
theorem important_only_matches_all :
    ruleLines plainExternals importantOnly =
        .ok [{ ruleLine := "a.com".toList, isSuffix := true, hasEnd := true, isImportant := true }] ∧
      (blocked plainExternals
        [{ ruleLine := "a.com".toList, isSuffix := true, hasEnd := true, isImportant := true }]
        "b.com") = false ∧
      answerOf plainExternals importantOnly "b.com" = some true := by
  decide +kernel

end AmneziaBox.Guarantees.AdGuardPrecedence
