import AmneziaBox.Guarantees.AdGuardReading

/-!
# A converted filter list written back

`FromOptions` recovers the four kinds of lines from the nesting of the rule and writes them as
text. Of two rules that look alike it takes the outer one for the important exceptions, and a
modifier behind a regular expression is not read. What the text is read as follows from that, as
long as it is not a list of bare names, which is read as a list of domains, and no line is too long
for the scanner: it is the same rule if the list leaves no room for either, and a rule with the
same answers if every domain for which it matters is decided by other lines.
-/
namespace AmneziaBox.Guarantees.AdGuardRoundTrip
open Library List
open Source.Adapter Source.Rule Source.AdGuard AdGuardPrecedence AdGuardReading

variable {ext : Externals}

variable {text : Text} {lines : List AgdguardRuleLine} {groups : Groups}

/-! ## Reading all that was written -/

/-- A pattern and the kind of line it stands on. -/
structure Item where
  isImportant : Bool
  isExclude : Bool
  isRegexp : Bool
  pattern : Text

/-- The line that is written for it. -/
def Item.line (item : Item) : Text :=
  writeLine item.isImportant item.isExclude item.isRegexp item.pattern

/-- An important regular expression that blocks is not read back. -/
def Item.isDropped (item : Item) : Bool := item.isImportant && !item.isExclude && item.isRegexp

def itemOfLine (line : AgdguardRuleLine) : Item :=
  ⟨line.isImportant, line.isExclude, line.isRegexp, mapDomain line⟩

def patternItems (patterns : Patterns) (isImportant isExclude : Bool) : List Item :=
  patterns.domain.map (⟨isImportant, isExclude, false, ·⟩) ++
    patterns.domainRegex.map (⟨isImportant, isExclude, true, ·⟩)

def groupItems (groups : Groups) : List Item :=
  patternItems groups.important true false ++ patternItems groups.importantExclude true true ++
    patternItems groups.ordinary false false ++ patternItems groups.exclude false true

theorem lines_eq (groups : Groups) : groups.lines = (groupItems groups).map Item.line := by
  simp [Groups.lines, Patterns.lines, groupItems, patternItems, Item.line, Function.comp_def]

theorem select_eq (lines : List AgdguardRuleLine) (isImportant isExclude isRegexp : Bool) :
    select lines isImportant isExclude isRegexp = ((lines.map itemOfLine).filter fun item =>
      item.isImportant == isImportant && item.isRegexp == isRegexp &&
        item.isExclude == isExclude).map Item.pattern := by
  rw [select, filter_map, map_map]
  rfl

/-- Lines with the items of the groups are lines of these groups. -/
theorem groupsOf_eq (same : lines.map itemOfLine = groupItems groups) : groupsOf lines = groups := by
  simp [groupsOf, patternsOf, select_eq, same, groupItems, patternItems, filter_map,
    Function.comp_def]

/-- What is written is read back as the items that are not dropped, and not as bare domains only
unless it looks like it. -/
theorem parseLines_items {items : List Item}
    (rereads : ∀ item ∈ items, item.isDropped = false →
      Rereads ext item.isImportant item.isExclude item.isRegexp item.pattern) :
    ∃ lines, parseLines ext (items.map Item.line) = .ok lines ∧
      lines.map itemOfLine = items.filter (!·.isDropped) ∧
      ((∃ item ∈ items, item.isDropped = false ∧ isDomainName item.line = false) →
        ∃ line ∈ lines, line.isRawDomain = false) := by
  induction items with
  | nil => exact ⟨[], rfl, rfl, nofun⟩
  | cons item rest ih =>
    obtain ⟨here, later⟩ := forall_mem_cons.mp rereads
    obtain ⟨lines, parsed, same, adblock⟩ := ih later
    cases dropped : item.isDropped with
    | true =>
      have skipped : parseLine ext item.line = .ok none := by
        obtain ⟨isImportant, isExclude, isRegexp, pattern⟩ := item
        simp only [Item.isDropped, Bool.and_eq_true, Bool.not_eq_true'] at dropped
        obtain ⟨⟨rfl, rfl⟩, rfl⟩ := dropped
        exact parseLine_important_regexp pattern
      refine ⟨lines, by rw [map_cons, parseLines, skipped, parsed]; rfl, by simp [dropped, same], ?_⟩
      rintro ⟨other, member, kept, unnamed⟩
      rcases mem_cons.mp member with rfl | inside
      · cases dropped.symm.trans kept
      · exact adblock ⟨other, inside, kept, unnamed⟩
    | false =>
      obtain ⟨line, read, important, exclude, regexp, shown, bare⟩ := here dropped
      have itself : itemOfLine line = item := by simp [itemOfLine, important, exclude, regexp, shown]
      have first : parseLine ext item.line = .ok (some line) := read
      refine ⟨line :: lines, by rw [map_cons, parseLines, first, parsed]; rfl,
        by simp [dropped, same, itself], ?_⟩
      rintro ⟨other, member, kept, unnamed⟩
      rcases mem_cons.mp member with rfl | inside
      · refine ⟨line, mem_cons_self, ?_⟩
        rw [← Bool.not_eq_true] at unnamed ⊢
        exact fun isRaw => unnamed (bare isRaw)
      · obtain ⟨found, there, isAdblock⟩ := adblock ⟨other, inside, kept, unnamed⟩
        exact ⟨found, mem_cons_of_mem _ there, isAdblock⟩

/-! ## Recovering the groups -/

/-- What `FromOptions` takes the groups for: without important exceptions, the ordinary ones are
read in their place. -/
def recovered (groups : Groups) : Groups :=
  if groups.importantExclude.isEmpty then
    { groups with importantExclude := groups.exclude, exclude := {} }
  else groups

theorem eq_empty_of_isEmpty {patterns : Patterns} (none : patterns.isEmpty = true) :
    patterns = {} := by
  obtain ⟨domain, domainRegex⟩ := patterns
  simp only [Patterns.isEmpty, Bool.and_eq_true, List.isEmpty_iff] at none
  rw [none.1, none.2]

theorem readGroups_exceptions (patterns : Patterns) (current : RuleOptions)
    (unset : groups.exclude = {}) :
    readGroups (wrap .and patterns true current) groups = readGroups current
      (if groups.importantExclude.isEmpty then { groups with importantExclude := patterns }
        else { groups with exclude := patterns }) := by
  obtain ⟨important, importantExclude, ordinary, exclude⟩ := groups
  cases unset
  unfold wrap
  split
  · rename_i none
    rw [eq_empty_of_isEmpty none]
    split
    · rename_i noImportantExclude
      have same : importantExclude = {} := eq_empty_of_isEmpty noImportantExclude
      subst same
      rfl
    · rfl
  · rename_i some
    have shown : (patterns.options true).patterns = patterns := rfl
    rw [readGroups, shown, if_neg some]
    · exact (apply_ite (readGroups current) _ _ _).symm
    · rfl

theorem readGroups_additions (patterns : Patterns) (current : RuleOptions)
    (unset : groups.important = {}) :
    readGroups (wrap .or patterns false current) groups =
      readGroups current { groups with important := patterns } := by
  obtain ⟨important, importantExclude, ordinary, exclude⟩ := groups
  cases unset
  unfold wrap
  split
  · rename_i none
    rw [eq_empty_of_isEmpty none]
  · rename_i some
    have shown : (patterns.options false).patterns = patterns := rfl
    rw [readGroups, shown, if_neg some]
    rfl

theorem readGroups_rule (some : groups.ordinary.isEmpty = false) :
    readGroups groups.rule {} = .ok (recovered groups) := by
  have core (seen : Groups) : readGroups (.default (groups.ordinary.options false)) seen =
      .ok { seen with ordinary := groups.ordinary } := by
    have shown : (groups.ordinary.options false).patterns = groups.ordinary := rfl
    rw [readGroups, shown, some, if_neg Bool.false_ne_true]
  have outer : (if ({} : Groups).importantExclude.isEmpty then
      { importantExclude := groups.importantExclude }
      else { exclude := groups.importantExclude } : Groups) =
        { importantExclude := groups.importantExclude } := rfl
  rw [Groups.rule, readGroups_exceptions _ _ rfl, outer, readGroups_additions _ _ rfl,
    readGroups_exceptions _ _ rfl, core, recovered]
  split <;> rfl

/-- The groups give the rule they were recovered from, unless ordinary exceptions have taken the
place of important ones in front of important lines. -/
theorem recovered_rule
    (unambiguous : groups.exclude.isEmpty = true ∨ groups.importantExclude.isEmpty = false ∨
      groups.important.isEmpty = true) : (recovered groups).rule = groups.rule := by
  unfold recovered
  split
  · rename_i none
    obtain ⟨important, importantExclude, ordinary, exclude⟩ := groups
    have noImportantExclude := eq_empty_of_isEmpty none
    simp only at noImportantExclude
    subst noImportantExclude
    rcases unambiguous with noExclude | some | noImportant
    · rw [show exclude = {} from eq_empty_of_isEmpty noExclude]
    · cases some
    · rw [show important = {} from eq_empty_of_isEmpty noImportant]
      rfl
  · rfl

/-! ## The lines that are read back -/

/-- Some exception of the list is important. -/
def hasImportantExclude (lines : List AgdguardRuleLine) : Bool :=
  lines.any fun line => line.isImportant && line.isExclude

/-- The item that is written for a line: without important exceptions, the ordinary ones become
important. -/
def writtenItem (lines : List AgdguardRuleLine) (line : AgdguardRuleLine) : Item :=
  { itemOfLine line with
    isImportant := line.isImportant || line.isExclude && !hasImportantExclude lines }

def writtenAs (lines : List AgdguardRuleLine) (line : AgdguardRuleLine) : Text :=
  (writtenItem lines line).line

theorem importantExclude_isEmpty (lines : List AgdguardRuleLine) :
    (groupsOf lines).importantExclude.isEmpty = !hasImportantExclude lines := by
  rw [Bool.eq_iff_iff, groupsOf, patternsOf_isEmpty_iff]
  simp [hasImportantExclude]

variable {item : Item}

theorem mem_patternItems {isImportant isExclude written : Bool} :
    item ∈ patternItems (patternsOf lines isImportant isExclude) written isExclude ↔
      ∃ line ∈ lines, (line.isImportant = isImportant ∧ line.isExclude = isExclude) ∧
        item = ⟨written, isExclude, line.isRegexp, mapDomain line⟩ := by
  simp only [patternItems, patternsOf, mem_append, mem_map, mem_select]
  constructor
  · rintro (⟨_, ⟨line, inside, important, exclude, regexp, rfl⟩, rfl⟩ |
      ⟨_, ⟨line, inside, important, exclude, regexp, rfl⟩, rfl⟩)
    · exact ⟨line, inside, ⟨important, exclude⟩, by rw [regexp]⟩
    · exact ⟨line, inside, ⟨important, exclude⟩, by rw [regexp]⟩
  · rintro ⟨line, inside, ⟨important, exclude⟩, rfl⟩
    cases regexp : line.isRegexp with
    | false => exact .inl ⟨_, ⟨line, inside, important, exclude, regexp, rfl⟩, rfl⟩
    | true => exact .inr ⟨_, ⟨line, inside, important, exclude, regexp, rfl⟩, rfl⟩

theorem mem_groupItems : item ∈ groupItems (recovered (groupsOf lines)) ↔
    ∃ line ∈ lines, item = writtenItem lines line := by
  have promoted : item ∈ groupItems (recovered (groupsOf lines)) ↔
      ∃ isImportant isExclude, item ∈ patternItems (patternsOf lines isImportant isExclude)
        (isImportant || isExclude && !hasImportantExclude lines) isExclude := by
    rw [recovered, importantExclude_isEmpty]
    cases some : hasImportantExclude lines with
    | true => simp [groupItems, groupsOf, or_comm, or_left_comm, or_assoc]
    | false =>
      have none : (groupsOf lines).importantExclude = {} :=
        eq_empty_of_isEmpty (by rw [importantExclude_isEmpty, some]; rfl)
      change patternsOf lines true true = {} at none
      simp [groupItems, groupsOf, none, patternItems, or_comm, or_left_comm, or_assoc]
  rw [promoted]
  simp only [mem_patternItems, writtenItem, itemOfLine]
  constructor
  · rintro ⟨_, _, line, inside, ⟨rfl, rfl⟩, same⟩
    exact ⟨line, inside, same⟩
  · rintro ⟨line, inside, same⟩
    exact ⟨_, _, line, inside, ⟨rfl, rfl⟩, same⟩

/-- The lines that are not dropped. -/
def reread (lines : List AgdguardRuleLine) : List AgdguardRuleLine :=
  lines.filter fun line => !(itemOfLine line).isDropped

theorem isDropped_writtenItem (lines : List AgdguardRuleLine) (line : AgdguardRuleLine) :
    (writtenItem lines line).isDropped = (itemOfLine line).isDropped := by
  cases exclude : line.isExclude <;> simp [writtenItem, itemOfLine, Item.isDropped, exclude]

theorem groupsOf_reread (lines : List AgdguardRuleLine) : groupsOf (reread lines) =
    { groupsOf lines with important := ⟨select lines true false false, []⟩ } := by
  have kept (isImportant isExclude isRegexp : Bool) :
      select (reread lines) isImportant isExclude isRegexp =
        if isImportant && !isExclude && isRegexp then []
        else select lines isImportant isExclude isRegexp := by
    rw [select, select, reread, filter_filter]
    split
    · rename_i dropped
      rw [map_eq_nil_iff, filter_eq_nil_iff]
      simp only [itemOfLine, Item.isDropped, Bool.and_eq_true, beq_iff_eq]
      rintro line - ⟨⟨⟨rfl, rfl⟩, rfl⟩, kept⟩
      rw [dropped] at kept
      cases kept
    · rename_i kept
      congr 1
      apply filter_congr
      intro line member
      rw [Bool.and_eq_left_iff_imp]
      simp only [itemOfLine, Item.isDropped, Bool.and_eq_true, beq_iff_eq]
      rintro ⟨⟨rfl, rfl⟩, rfl⟩
      simpa only [Bool.not_eq_true', Bool.not_eq_true] using kept
  simp [groupsOf, patternsOf, kept]

theorem recovered_reread (lines : List AgdguardRuleLine) : recovered (groupsOf (reread lines)) =
    { recovered (groupsOf lines) with important := ⟨select lines true false false, []⟩ } := by
  rw [groupsOf_reread]
  unfold recovered
  split <;> rfl

theorem groupItems_reread (lines : List AgdguardRuleLine) :
    (groupItems (recovered (groupsOf lines))).filter (!·.isDropped) =
      groupItems (recovered (groupsOf (reread lines))) := by
  have important : (recovered (groupsOf lines)).important = patternsOf lines true false := by
    unfold recovered
    split <;> rfl
  rw [recovered_reread]
  simp [groupItems, patternItems, filter_map, Item.isDropped, Function.comp_def, important,
    patternsOf]

/-! ## The answers -/

variable (ext) in
/-- Both rules are accepted and match the same domains. -/
def MatchAlike (rule again : RuleOptions) : Prop :=
  ∃ built rebuilt, newHeadlessRule ext rule = .ok built ∧ newHeadlessRule ext again = .ok rebuilt ∧
    ∀ input : MatchInput, domainHost input ≠ "" →
      (HeadlessRule.matchOn built { toMatchInput := input }).1 =
        (HeadlessRule.matchOn rebuilt { toMatchInput := input }).1

variable (ext) in
/-- No important line and ordinary exception match one domain, unless the list has important
exceptions, and what a dropped line matches is decided without it. -/
def Harmless (lines : List AgdguardRuleLine) : Prop :=
  ∀ host, host ≠ "" →
    (hasImportantExclude lines = false →
      ¬(someMatches ext lines true false host = true ∧ someMatches ext lines false true host = true)) ∧
    (someMatches ext lines true false host = true →
      someMatches ext (reread lines) true false host = true ∨
        someMatches ext lines true true host = true ∨
        someMatches ext lines false false host = true ∧ someMatches ext lines false true host = false)

theorem linesCompile_reread (compile : LinesCompile ext lines) : LinesCompile ext (reread lines) :=
  fun line member => compile line (mem_filter.mp member).1

theorem GroupsCompile.recovered {groups : Groups} (compile : GroupsCompile ext groups) :
    GroupsCompile ext (recovered groups) := by
  unfold AdGuardRoundTrip.recovered
  split
  · exact ⟨compile.important, compile.exclude, compile.ordinary, nofun⟩
  · exact compile

theorem someMatches_reread {host : String}
    (found : someMatches ext (reread lines) true false host = true) :
    someMatches ext lines true false host = true := by
  obtain ⟨line, member, shown⟩ := any_eq_true.mp found
  exact any_eq_true.mpr ⟨line, (mem_filter.mp member).1, shown⟩

/-- The answers for one domain: `blocks` and `stillBlocks` say whether an important line does before
and after, `ordinary` whether an ordinary one does, and the other two are the exceptions. -/
theorem answers_iff : ∀ importantExcludes excludedFirst excluded blocks stillBlocks ordinary : Bool,
    (importantExcludes = false → excludedFirst = false) → (stillBlocks = true → blocks = true) →
    ((!excludedFirst && (blocks || (!excluded && ordinary))) =
        (if importantExcludes then !excludedFirst && (stillBlocks || (!excluded && ordinary))
          else !excluded && (stillBlocks || ordinary)) ↔
      (importantExcludes = false → ¬(blocks = true ∧ excluded = true)) ∧
        (blocks = true →
          stillBlocks = true ∨ excludedFirst = true ∨ ordinary = true ∧ excluded = false)) := by
  decide

theorem matchAlike_iff (compile : LinesCompile ext lines)
    (ordinary : (groupsOf lines).ordinary.isEmpty = false) :
    MatchAlike ext (groupsOf lines).rule (recovered (groupsOf (reread lines))).rule ↔
      Harmless ext lines := by
  have groups := (groupsCompile_iff lines).mpr compile
  have others := GroupsCompile.recovered ((groupsCompile_iff _).mpr (linesCompile_reread compile))
  obtain ⟨built, accepted⟩ := groups.means.built
  obtain ⟨rebuilt, reaccepted⟩ := others.means.built
  change (patternsOf lines false false).isEmpty = false at ordinary
  have revalue {input : MatchInput} (named : domainHost input ≠ "") :
      (HeadlessRule.matchOn rebuilt { toMatchInput := input }).1 =
        if hasImportantExclude lines then
          (!someMatches ext lines true true (domainHost input) &&
            (someMatches ext (reread lines) true false (domainHost input) ||
              (!someMatches ext lines false true (domainHost input) &&
                someMatches ext lines false false (domainHost input))))
        else
          !someMatches ext lines false true (domainHost input) &&
            (someMatches ext (reread lines) true false (domainHost input) ||
              someMatches ext lines false false (domainHost input)) := by
    have important : patternsMatch ext ⟨select lines true false false, []⟩ input =
        someMatches ext (reread lines) true false (domainHost input) := by
      rw [← patternsMatch_patternsOf (reread lines) true false named]
      change _ = patternsMatch ext (groupsOf (reread lines)).important input
      rw [groupsOf_reread]
    rw [others.answer reaccepted, recovered_reread, recovered, importantExclude_isEmpty]
    cases hasImportantExclude lines with
    | true => simp [groupsOf, patternsMatch_patternsOf lines _ _ named, important, ordinary]
    | false =>
      have none : patternsMatch ext {} input = false := patternsMatch_of_isEmpty rfl input
      simp [groupsOf, patternsMatch_patternsOf lines _ _ named, important, ordinary, none]
  have unexcluded (host : String) (none : hasImportantExclude lines = false) :
      someMatches ext lines true true host = false :=
    someMatches_of_isEmpty ((importantExclude_isEmpty lines).trans (by rw [none]; rfl)) host
  constructor
  · rintro ⟨one, other, oneAccepted, otherAccepted, alike⟩ host named
    cases accepted.symm.trans oneAccepted
    cases reaccepted.symm.trans otherAccepted
    have here : domainHost { domain := host } = host := if_pos named
    have same := alike { domain := host } (by rwa [here])
    rw [groups.answer_lines accepted (by rwa [here]), ordinary, revalue (by rwa [here]), here] at same
    exact (answers_iff _ _ _ _ _ _ (unexcluded host) someMatches_reread).mp same
  · intro harmless
    refine ⟨built, rebuilt, accepted, reaccepted, fun input named => ?_⟩
    rw [groups.answer_lines accepted named, ordinary, revalue named]
    exact (answers_iff _ _ _ _ _ _ (unexcluded _) someMatches_reread).mpr (harmless _ named)

/-! ## The round trip -/

/-- No important line is a regular expression, and ordinary exceptions do not stand for important
ones in front of important lines. -/
structure Unambiguous (lines : List AgdguardRuleLine) : Prop where
  expressions : ∀ line ∈ lines,
    ¬(line.isImportant = true ∧ line.isExclude = false ∧ line.isRegexp = true)
  exceptions : (∀ line ∈ lines, ¬(line.isImportant = false ∧ line.isExclude = true)) ∨
    (∃ line ∈ lines, line.isImportant = true ∧ line.isExclude = true) ∨
    ∀ line ∈ lines, ¬(line.isImportant = true ∧ line.isExclude = false)

theorem Unambiguous.rule (unambiguous : Unambiguous lines) :
    (recovered (groupsOf (reread lines))).rule = (groupsOf lines).rule := by
  have all : reread lines = lines := by
    refine filter_eq_self.mpr fun line member => ?_
    have kept := unambiguous.expressions line member
    rw [Item.isDropped, Bool.not_eq_true', ← Bool.not_eq_true, Bool.and_eq_true, Bool.and_eq_true,
      Bool.not_eq_true', and_assoc]
    exact kept
  rw [all]
  apply recovered_rule
  rcases unambiguous.exceptions with none | ⟨line, member, kind⟩ | none
  · exact .inl ((patternsOf_isEmpty_iff lines false true).mpr none)
  · refine .inr (.inl ?_)
    rw [← Bool.not_eq_true]
    exact fun none => (patternsOf_isEmpty_iff lines true true).mp none line member kind
  · exact .inr (.inr ((patternsOf_isEmpty_iff lines true false).mpr none))

section
variable (carried : ∀ line ∈ lines, Parsed line)
include carried

theorem rereads_groupItems : ∀ item ∈ groupItems (recovered (groupsOf lines)),
    item.isDropped = false →
      Rereads ext item.isImportant item.isExclude item.isRegexp item.pattern := by
  intro item member kept
  obtain ⟨line, inLines, rfl⟩ := mem_groupItems.mp member
  refine (carried line inLines).rereads fun regexp blocking => ?_
  rw [isDropped_writtenItem] at kept
  simpa [writtenItem, itemOfLine, Item.isDropped, regexp, blocking] using kept

theorem scanLines_written (fits : ∀ line ∈ lines, (writtenAs lines line).length < maxScanTokenSize) :
    scanLines (unlines (recovered (groupsOf lines)).lines) = (recovered (groupsOf lines)).lines := by
  apply scanLines_unlines
  intro shown member
  rw [lines_eq] at member
  obtain ⟨item, inItems, rfl⟩ := mem_map.mp member
  obtain ⟨line, inLines, rfl⟩ := mem_groupItems.mp inItems
  exact (carried line inLines).scanLine (fits line inLines)

end

/-- The rule of a list with an ordinary blocking line and adblock-style lines only is written to a
text. If what is read back is not a list of bare names and every written line fits into the
scanner's buffer, the text is read as a rule: the same one if the list is unambiguous, and one
that matches the same domains if and only if the differences are harmless. -/
theorem roundTrip_iff {text : Text} {lines : List AgdguardRuleLine}
    (parsed : ruleLines ext text = .ok lines)
    (adblock : ∀ line ∈ lines, line.isRawDomain = false)
    (ordinary : ∃ line ∈ lines, line.isImportant = false ∧ line.isExclude = false)
    (patterned : ∃ line ∈ reread lines, isDomainName (writtenAs lines line) = false)
    (fits : ∀ line ∈ lines, (writtenAs lines line).length < maxScanTokenSize) :
    ∃ rule output again, toOptions ext text = .ok [rule] ∧ fromOptions [rule] = .ok output ∧
      toOptions ext output = .ok [again] ∧ (Unambiguous lines → again = rule) ∧
      (LinesCompile ext lines → (MatchAlike ext rule again ↔ Harmless ext lines)) := by
  obtain ⟨blocking, inside, isOrdinary⟩ := ordinary
  have nonempty : lines ≠ [] := ne_nil_of_mem inside
  have notRaw : lines.all AgdguardRuleLine.isRawDomain = false :=
    all_eq_false.mpr ⟨blocking, inside, by simp [adblock blocking inside]⟩
  have carried : ∀ line ∈ lines, Parsed line := by
    intro line member
    obtain ⟨shown, scanned, same⟩ := parseLines_mem parsed member
    exact parseLine_parsed (not_mem_of_mem_scanLines scanned) (adblock line member) same
  have some : (groupsOf lines).ordinary.isEmpty = false := by
    rw [← Bool.not_eq_true]
    exact fun none => (patternsOf_isEmpty_iff lines false false).mp none blocking inside isOrdinary
  obtain ⟨again, reads, items, adblockAgain⟩ := parseLines_items (rereads_groupItems carried)
  rw [groupItems_reread] at items
  obtain ⟨shown, kept, unnamed⟩ := patterned
  obtain ⟨inLines, undropped⟩ := mem_filter.mp kept
  obtain ⟨line, member, isAdblock⟩ := adblockAgain ⟨writtenItem lines shown,
    mem_groupItems.mpr ⟨shown, inLines, rfl⟩, by
      rw [isDropped_writtenItem]
      simpa using undropped, unnamed⟩
  have reread : ruleLines ext (unlines (recovered (groupsOf lines)).lines) = .ok again := by
    rw [ruleLines, scanLines_written carried fits, lines_eq]
    exact reads
  refine ⟨(groupsOf lines).rule, unlines (recovered (groupsOf lines)).lines, _, ?_, ?_, ?_,
    Unambiguous.rule, fun compile => matchAlike_iff compile some⟩
  · rw [toOptions_eq parsed nonempty, ruleOf, notRaw]
    rfl
  · rw [fromOptions, readGroups_rule some]
    rfl
  · have againNotRaw : again.all AgdguardRuleLine.isRawDomain = false :=
      all_eq_false.mpr ⟨line, member, by simp [isAdblock]⟩
    rw [toOptions_eq reread (ne_nil_of_mem member), ruleOf, againNotRaw, groupsOf_eq items]
    rfl

def writtenBack (ext : Externals) (text : Text) : Except ConvertError Text :=
  toOptions ext text >>= fromOptions

/-- Every kind of line but an important regular expression. -/
def sampleList : Text :=
  "||a.org^$important\n@@|b.a.org^$important\n||c.org^\n/d.*e/\n@@/^f/\nexample.arpa|\n".toList

def sampleLines : List AgdguardRuleLine :=
  [{ ruleLine := "a.org".toList, isSuffix := true, hasEnd := true, isImportant := true },
    { ruleLine := "b.a.org".toList, isExclude := true, hasStart := true, hasEnd := true,
      isImportant := true },
    { ruleLine := "c.org".toList, isSuffix := true, hasEnd := true },
    { ruleLine := "d.*e".toList, isRegexp := true },
    { ruleLine := "^f".toList, isExclude := true, isRegexp := true },
    { ruleLine := "example.arpa".toList }]

theorem roundTrip_sample :
    ∃ rule output, toOptions plainExternals sampleList = .ok [rule] ∧
      fromOptions [rule] = .ok output ∧ toOptions plainExternals output = .ok [rule] := by
  have parsed : ruleLines plainExternals sampleList = .ok sampleLines := by decide +kernel
  obtain ⟨rule, output, again, converted, written, reread, same, -⟩ := roundTrip_iff parsed
    (by decide +kernel) (by decide +kernel) (by decide +kernel) (by decide +kernel)
  rw [same ⟨by decide +kernel, by decide +kernel⟩] at reread
  exact ⟨rule, output, converted, written, reread⟩

/-- An important line, an ordinary one, and an ordinary exception to the important one. -/
def promotedList : Text := "||a.com^$important\n||b.com^\n@@||x.a.com^\n".toList

def promotedOutput : Text := "||a.com^$important\n@@||x.a.com^$important\n||b.com^\n".toList

/-- The exception comes back as an important one, and `x.a.com` is no longer matched. -/
theorem promoted_exception :
    writtenBack plainExternals promotedList = .ok promotedOutput ∧
      answerOf plainExternals promotedList "x.a.com" = some true ∧
      answerOf plainExternals promotedOutput "x.a.com" = some false := by
  decide +kernel

end AmneziaBox.Guarantees.AdGuardRoundTrip
