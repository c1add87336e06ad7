import AmneziaBox.Guarantees.AdGuardPrecedence

/-!
# Reading a written filter line

A line that `FromOptions` writes is a pattern with marks around it: `@@` in front of an exception,
slashes around a regular expression, `$important` behind it. The parser takes the marks off
again and finds the pattern. What a parsed line carries is what the parser needs to read its
pattern: a domain keeps its characters, a regular expression of an exception has no `$`.
-/
namespace AmneziaBox.Guarantees.AdGuardReading
open Library List
open Source.Adapter Source.Rule Source.AdGuard

variable {ext : Externals}

/-! ## The characters of a domain -/

/-- The characters of a domain pattern. -/
def nameChar (char : Char) : Bool :=
  isLetter char || isDigit char || char == '-' || char == '.' || char == '*'

variable {char : Char}

theorem next_char {scan after : NameScan} (step : scan.next char = some after) :
    nameChar char = true := by
  unfold NameScan.next at step
  unfold nameChar
  split_ifs at step <;> simp_all

variable {text : Text}

theorem foldlM_chars {scan after : NameScan} (walk : text.foldlM NameScan.next scan = some after) :
    ∀ char ∈ text, nameChar char = true := by
  induction text generalizing scan with
  | nil => exact nofun
  | cons first rest ih =>
    rw [foldlM_cons] at walk
    cases step : scan.next first with
    | none => simp [step] at walk
    | some middle =>
      rw [step] at walk
      intro char member
      rcases mem_cons.mp member with rfl | later
      · exact next_char step
      · exact ih walk char later

theorem chars_of_isDomainName (named : isDomainName text = true) :
    ∀ char ∈ text, nameChar char = true := by
  unfold isDomainName at named
  split at named
  · rename_i root
    subst root
    simp [nameChar]
  · split at named
    · cases named
    · cases walk : text.foldlM NameScan.next {} with
      | none => simp [walk] at named
      | some scan => exact foldlM_chars walk

theorem chars_of_domainCheck (named : isDomainName (domainCheck text) = true) :
    ∀ char ∈ text, nameChar char = true := by
  intro char member
  have mapped : (if char = '*' then 'x' else char) ∈ domainCheck text := by
    apply mem_map_of_mem (f := fun char => if char = '*' then 'x' else char)
    split
    · exact mem_cons_of_mem _ member
    · exact member
  by_cases star : char = '*'
  · subst star
    rfl
  · rw [if_neg star] at mapped
    exact chars_of_isDomainName named char mapped

/-- A text of name characters and those in `others` has no other character. -/
theorem not_mem_of_chars (chars : ∀ char ∈ text, nameChar char = true)
    (foreign : nameChar char = false) : char ∉ text := by
  intro member
  rw [chars char member] at foreign
  cases foreign

/-! ## Reading a written line -/

/-- The pattern of a line with the marks around it. -/
def mark (isImportant isExclude : Bool) (pattern : Text) : Text :=
  (if isExclude then ['@', '@'] else []) ++ pattern ++ if isImportant then '$' :: importantKey else []

theorem writeLine_eq (isImportant isExclude isRegexp : Bool) (ruleLine : Text) :
    writeLine isImportant isExclude isRegexp ruleLine =
      mark isImportant isExclude (if isRegexp then '/' :: (ruleLine ++ ['/']) else ruleLine) := rfl

/-- A pattern that stands between the marks as the parser expects it. -/
structure Framed (isImportant isExclude : Bool) (pattern : Text) : Prop where
  nonempty : pattern ≠ []
  start : pattern.head? ≠ some '@'
  stop : pattern.getLast? ≠ some '|'
  stop_cr : pattern.getLast? ≠ some '\r'
  /-- the modifiers of a line that starts with a slash are not read -/
  modifiers : ('$' ∉ pattern ∧ (pattern.head? = some '/' → isExclude = false → isImportant = false)) ∨
    (pattern.head? = some '/' ∧ isExclude = false ∧ isImportant = false)

theorem readParams_important : readParams ext (importantKey.splitOn ',') = some true := by
  have key : importantKey.splitOn ',' = [importantKey] := by decide
  have parts : importantKey.splitOn '=' = [importantKey] := by decide
  rw [key, readParams, readParam, parts]
  rfl

theorem head_append {pattern rest : Text} (nonempty : pattern ≠ []) :
    (pattern ++ rest).head? = pattern.head? := by
  cases pattern with
  | nil => exact absurd rfl nonempty
  | cons first more => rfl

theorem getLast_append {before pattern : Text} (nonempty : pattern ≠ []) :
    (before ++ pattern).getLast? = pattern.getLast? := by
  rw [getLast?_append_of_ne_nil before nonempty]

section Written
variable {isImportant isExclude : Bool} {pattern : Text}

theorem getLast_mark (nonempty : pattern ≠ []) {last : Char}
    (ends : (mark isImportant isExclude pattern).getLast? = some last) :
    last = 't' ∨ pattern.getLast? = some last := by
  cases isImportant with
  | true =>
    rw [mark, if_pos rfl, getLast_append (cons_ne_nil _ _)] at ends
    exact .inl (Option.some.inj ends).symm
  | false =>
    rw [mark, if_neg Bool.false_ne_true, append_nil, getLast_append nonempty] at ends
    exact .inr ends

section Framed
variable (framed : Framed isImportant isExclude pattern)
include framed

theorem Framed.trimEnd_mark :
    trimEnd '|' (mark isImportant isExclude pattern) = mark isImportant isExclude pattern := by
  apply trimEnd_of_ne
  intro ends
  rcases getLast_mark framed.nonempty ends with other | own
  · cases other
  · exact framed.stop own

theorem Framed.head_mark :
    (mark isImportant isExclude pattern).head? =
      if isExclude then some '@' else pattern.head? := by
  cases isExclude with
  | true => rfl
  | false =>
    rw [mark, if_neg Bool.false_ne_true, nil_append, head_append framed.nonempty]
    rfl

/-- The modifiers are cut off again. -/
theorem Framed.splitModifiers_mark :
    splitModifiers ext (mark isImportant isExclude pattern) =
      some (mark false isExclude pattern, isImportant) := by
  unfold splitModifiers
  rw [framed.head_mark]
  rcases framed.modifiers with ⟨plain, slash⟩ | ⟨slash, rfl, rfl⟩
  · have unmarked : '$' ∉ mark false isExclude pattern := by
      cases isExclude <;> simp [mark, plain]
    cases isImportant with
    | false =>
      rw [cut_eq_none unmarked]
      exact ite_self _
    | true =>
      have notSlash : (if isExclude then some '@' else pattern.head?) ≠ some '/' := by
        cases isExclude with
        | true => simp
        | false => exact fun starts => nomatch slash starts rfl
      have whole : mark true isExclude pattern =
          mark false isExclude pattern ++ '$' :: importantKey := by simp [mark]
      rw [if_neg notSlash, whole, cut_append unmarked]
      simp [readParams_important]
  · rw [if_neg Bool.false_ne_true, if_pos slash]

/-- What the parser makes of the marks. -/
theorem Framed.parseAdblockLine_mark :
    parseAdblockLine ext (mark isImportant isExclude pattern) =
      parsePattern (readEnd (readStart { ruleLine := pattern, isImportant, isExclude })) := by
  have excluded : readExclude { ruleLine := mark false isExclude pattern, isImportant } =
      { ruleLine := pattern, isImportant, isExclude } := by
    cases isExclude with
    | true => simp [mark, readExclude]
    | false =>
      have same : mark false false pattern = pattern := by simp [mark]
      rw [same]
      unfold readExclude
      split
      · rename_i rest starts
        exact absurd (congrArg head? starts) framed.start
      · rfl
  rw [parseAdblockLine, framed.trimEnd_mark, framed.splitModifiers_mark]
  simp only [excluded]
  rw [trimEnd_of_ne framed.stop]

end Framed

end Written

/-! ## Domains -/

/-- The text of a line that names a domain. -/
structure DomainText (core : Text) : Prop where
  nonempty : core ≠ []
  named : isDomainName (domainCheck core) = true

section Domain
variable {core : Text}

variable {line : AgdguardRuleLine}

theorem readStart_of_head (other : line.ruleLine.head? ≠ some '|') : readStart line = line := by
  unfold readStart
  split
  · rename_i rest starts
    exact absurd (congrArg head? starts) other
  · rename_i rest _ starts
    exact absurd (congrArg head? starts) other
  · rfl

theorem readStart_bar {tail : Text} (bar : line.ruleLine = '|' :: tail)
    (other : tail.head? ≠ some '|') :
    readStart line = { line with ruleLine := tail, hasStart := true } := by
  unfold readStart
  rw [bar]
  cases tail with
  | nil => rfl
  | cons first rest =>
    have ne : first ≠ '|' := by simpa using other
    split
    · rename_i starts
      simp only [cons.injEq] at starts
      exact absurd starts.2.1 ne
    · rename_i starts
      simp only [cons.injEq, true_and] at starts
      rw [starts]
    · rename_i none
      exact absurd rfl (none _)

/-- The characters of a pattern: those of its line and the anchors. -/
theorem mapDomain_not_mem (absent : char ∉ line.ruleLine) (bar : char ≠ '|') (caret : char ≠ '^') :
    char ∉ mapDomain line := by
  unfold mapDomain
  cases line.isSuffix <;> cases line.hasStart <;> cases line.hasEnd <;> simp [absent, bar, caret]

section
variable (domain : DomainText core)
include domain

theorem DomainText.not_mem (foreign : nameChar char = false) :
    char ∉ core :=
  not_mem_of_chars (chars_of_domainCheck domain.named) foreign

theorem DomainText.head_ne (foreign : nameChar char = false) :
    core.head? ≠ some char :=
  fun starts => domain.not_mem foreign (mem_of_head? starts)

theorem DomainText.last_ne (foreign : nameChar char = false) :
    core.getLast? ≠ some char :=
  fun ends => domain.not_mem foreign (mem_of_getLast? ends)

theorem DomainText.parsePattern_eq (line : AgdguardRuleLine) :
    parsePattern { line with ruleLine := core } = .ok (some { line with ruleLine := core }) := by
  have uncut : cut "://".toList core = none := cut_eq_none (domain.not_mem rfl)
  have supported : unsupportedChars.any core.contains = false := by
    rw [any_eq_false]
    intro char listed
    have foreign : unsupportedChars.all (!nameChar ·) = true := by decide
    have foreign := all_eq_true.mp foreign char listed
    simpa using domain.not_mem (by simpa using foreign)
  have some : core.isEmpty = false := by simpa using domain.nonempty
  have plain : readScheme { line with ruleLine := core } = { line with ruleLine := core } := by
    rw [readScheme, uncut]
  rw [parsePattern, if_neg fun slashes => domain.head_ne rfl slashes.1, plain]
  simp [parseDomain, supported, some, domain.named]

/-- The anchors are read back. -/
theorem DomainText.readMarks (isImportant isExclude isSuffix hasStart hasEnd : Bool) :
    readEnd (readStart {
        ruleLine := mapDomain { ruleLine := core, isSuffix, hasStart, hasEnd }
        isImportant, isExclude }) =
      { ruleLine := core, isImportant, isExclude, isSuffix, hasStart := !isSuffix && hasStart,
        hasEnd } := by
  have start : (core ++ if hasEnd then ['^'] else []).head? ≠ some '|' := by
    rw [head_append domain.nonempty]
    exact domain.head_ne rfl
  have stop : ∀ line : AgdguardRuleLine, line.hasEnd = false →
      readEnd { line with ruleLine := core ++ if hasEnd then ['^'] else [] } =
        { line with ruleLine := core, hasEnd } := by
    intro line unset
    unfold readEnd
    cases hasEnd with
    | true => simp
    | false =>
      have other : core.getLast? ≠ some '^' := domain.last_ne rfl
      simp [other, unset]
  cases isSuffix with
  | true => exact stop { ruleLine := core, isImportant, isExclude, isSuffix := true } rfl
  | false =>
    cases hasStart with
    | true =>
      rw [readStart_bar rfl start]
      exact stop { ruleLine := core, isImportant, isExclude, hasStart := true } rfl
    | false =>
      rw [readStart_of_head start]
      exact stop { ruleLine := core, isImportant, isExclude } rfl

theorem DomainText.absent {isSuffix hasStart hasEnd : Bool} (char : Char)
    (foreign : nameChar char = false) (bar : char ≠ '|') (caret : char ≠ '^') :
    char ∉ mapDomain { ruleLine := core, isSuffix, hasStart, hasEnd } :=
  mapDomain_not_mem (domain.not_mem foreign) bar caret

theorem DomainText.framed (isImportant isExclude isSuffix hasStart hasEnd : Bool) :
    Framed isImportant isExclude (mapDomain { ruleLine := core, isSuffix, hasStart, hasEnd }) := by
  refine ⟨?_, ?_, ?_, ?_, ?_⟩
  · cases isSuffix <;> cases hasStart <;> simp [mapDomain, domain.nonempty]
  · exact fun starts => domain.absent _ rfl (by decide) (by decide) (mem_of_head? starts)
  · intro ends
    cases hasEnd with
    | true =>
      rw [mapDomain, if_pos rfl, getLast_append (cons_ne_nil _ _)] at ends
      cases ends
    | false =>
      have tail : (mapDomain { ruleLine := core, isSuffix, hasStart, hasEnd := false }).getLast? =
          core.getLast? := by
        cases isSuffix <;> cases hasStart <;>
          simp [mapDomain, getLast?_cons, Option.getD_of_ne_none, domain.nonempty]
      rw [tail] at ends
      exact domain.last_ne rfl ends
  · exact fun ends => domain.absent _ rfl (by decide) (by decide) (mem_of_getLast? ends)
  · exact .inl ⟨domain.absent _ rfl (by decide) (by decide), fun starts =>
      absurd (mem_of_head? starts) (domain.absent _ rfl (by decide) (by decide))⟩

end

end Domain

/-! ## Whole lines -/

theorem parseLine_named (named : isDomainName text = true) :
    parseLine ext text = .ok (some { ruleLine := text, isRawDomain := true }) := by
  have chars := chars_of_isDomainName named
  have notBang : text.head? ≠ some '!' :=
    fun starts => not_mem_of_chars chars rfl (mem_of_head? starts)
  have notHash : text.head? ≠ some '#' :=
    fun starts => not_mem_of_chars chars rfl (mem_of_head? starts)
  have nonempty : text.isEmpty = false := by
    cases text with
    | nil => cases named
    | cons first rest => rfl
  simp [parseLine, notBang, notHash, nonempty, named]

theorem parseLine_other (nonempty : text ≠ []) (notBang : text.head? ≠ some '!')
    (notHash : text.head? ≠ some '#') (unnamed : isDomainName text = false)
    (host : parseAdGuardHostLine text = .other) :
    parseLine ext text = parseAdblockLine ext text := by
  simp [parseLine, notBang, notHash, nonempty, unnamed, host]

section Address
variable {first : Char} (foreign : first = '/' ∨ first = '@')
include foreign

theorem parseGroups_foreign (rounds : Nat) (ip : List Nat) (ellipsis : Option Nat) (rest : Text) :
    parseGroups (rounds + 1) ip ellipsis (first :: rest) = none := by
  have other : hexDigit first = none := by rcases foreign with rfl | rfl <;> decide
  simp [parseGroups, other]

theorem parseAllGroups_foreign (rest : Text) : parseAllGroups (first :: rest) = none := by
  have stops := parseGroups_foreign foreign 7 [] none rest
  rcases foreign with rfl | rfl <;> exact stops

theorem parseIPv6_foreign (rest : Text) : parseIPv6 (first :: rest) = none := by
  unfold parseIPv6
  cases found : cut ['%'] (first :: rest) with
  | none => simp [parseAllGroups_foreign foreign]
  | some parts =>
    obtain ⟨before, zone⟩ := parts
    have whole := eq_of_cut found
    cases before with
    | nil =>
      obtain ⟨rfl, -⟩ : first = '%' ∧ _ := by simpa using whole
      rcases foreign with bad | bad <;> cases bad
    | cons head tail =>
      cases whole
      by_cases none : zone = []
      · simp [none]
      · simp [none, parseAllGroups_foreign foreign]

/-- An address does not start with a slash or with `@`. -/
theorem parseAddr_foreign (rest : Text) : parseAddr (first :: rest) = none := by
  have field : FieldScan.next {} first = none := by rcases foreign with rfl | rfl <;> decide
  unfold parseAddr
  split
  · simp [parseIPv4Fields, field]
  · exact parseIPv6_foreign foreign rest
  · rfl

theorem host_other (starts : text.head? = some first) : parseAdGuardHostLine text = .other := by
  unfold parseAdGuardHostLine
  cases found : cut [' '] text with
  | none => rfl
  | some parts =>
    obtain ⟨before, after⟩ := parts
    rw [eq_of_cut found] at starts
    cases before with
    | nil =>
      obtain rfl : ' ' = first := by simpa using starts
      rcases foreign with bad | bad <;> cases bad
    | cons head rest =>
      cases starts
      dsimp only
      rw [parseAddr_foreign foreign rest]

end Address

variable (ext) in
/-- The line written for a pattern is read as a line of the same kind with that pattern; as a bare
domain only if it looks like one. -/
def Rereads (isImportant isExclude isRegexp : Bool) (ruleLine : Text) : Prop :=
  ∃ line, parseLine ext (writeLine isImportant isExclude isRegexp ruleLine) = .ok (some line) ∧
    line.isImportant = isImportant ∧ line.isExclude = isExclude ∧ line.isRegexp = isRegexp ∧
    mapDomain line = ruleLine ∧
    (line.isRawDomain = true →
      isDomainName (writeLine isImportant isExclude isRegexp ruleLine) = true)

variable {isImportant isExclude : Bool}

/-- A domain without marks and anchors that is a name is read as a bare domain. -/
theorem DomainText.rereads_named {core : Text} {isSuffix hasStart hasEnd : Bool}
    (named : isDomainName (mark isImportant isExclude
      (mapDomain { ruleLine := core, isSuffix, hasStart, hasEnd })) = true) :
    (isImportant = false ∧ isExclude = false) ∧
      mark isImportant isExclude (mapDomain { ruleLine := core, isSuffix, hasStart, hasEnd }) =
        mapDomain { ruleLine := core, isSuffix, hasStart, hasEnd } ∧
      mapDomain { ruleLine := core, isSuffix, hasStart, hasEnd } = core := by
  have absent {char : Char} (foreign : nameChar char = false) :
      char ∉ mark isImportant isExclude
        (mapDomain { ruleLine := core, isSuffix, hasStart, hasEnd }) :=
    not_mem_of_chars (chars_of_isDomainName named) foreign
  have noDollar : isImportant = false := by
    cases isImportant with
    | false => rfl
    | true => exact absurd (by simp [mark]) (absent (show nameChar '$' = false from rfl))
  have noAt : isExclude = false := by
    cases isExclude with
    | false => rfl
    | true => exact absurd (by simp [mark]) (absent (show nameChar '@' = false from rfl))
  subst noDollar noAt
  refine ⟨⟨rfl, rfl⟩, by simp [mark], ?_⟩
  have noBar : isSuffix = false ∧ hasStart = false := by
    cases isSuffix <;> cases hasStart
    · exact ⟨rfl, rfl⟩
    all_goals
      exact absurd (by simp [mark, mapDomain]) (absent (show nameChar '|' = false from rfl))
  have noCaret : hasEnd = false := by
    cases hasEnd with
    | false => rfl
    | true =>
      exact absurd (by simp [mark, mapDomain]) (absent (show nameChar '^' = false from rfl))
  obtain ⟨rfl, rfl⟩ := noBar
  subst noCaret
  simp [mapDomain]

/-- A line without a space that is no name, comment or host line. -/
theorem Framed.parseLine_mark (framed : Framed isImportant isExclude text)
    (absent : ∀ char, nameChar char = false → char ≠ '|' → char ≠ '^' → char ∉ text)
    (unnamed : isDomainName (mark isImportant isExclude text) = false) :
    parseLine ext (mark isImportant isExclude text) =
      parseAdblockLine ext (mark isImportant isExclude text) := by
  have head_ne {char : Char} (foreign : nameChar char = false) (bar : char ≠ '|')
      (caret : char ≠ '^') (notAt : char ≠ '@') :
      (mark isImportant isExclude text).head? ≠ some char := by
    rw [framed.head_mark]
    intro starts
    split at starts
    · exact notAt (Option.some.inj starts).symm
    · exact absent char foreign bar caret (mem_of_head? starts)
  have noSpace : ' ' ∉ mark isImportant isExclude text := by
    have inner := absent ' ' rfl (by decide) (by decide)
    have key : ' ' ∉ importantKey := by decide
    cases isImportant <;> cases isExclude <;> simp [mark, inner, key]
  have host : parseAdGuardHostLine (mark isImportant isExclude text) = .other := by
    rw [parseAdGuardHostLine, cut_eq_none noSpace]
  exact parseLine_other (by simp [mark, framed.nonempty])
    (head_ne rfl (by decide) (by decide) (by decide))
    (head_ne rfl (by decide) (by decide) (by decide)) unnamed host

theorem DomainText.rereads {core : Text} (domain : DomainText core) (isImportant isExclude isSuffix
    hasStart hasEnd : Bool) :
    Rereads ext isImportant isExclude false
      (mapDomain { ruleLine := core, isSuffix, hasStart, hasEnd }) := by
  have framed := domain.framed isImportant isExclude isSuffix hasStart hasEnd
  unfold Rereads
  rw [writeLine_eq, if_neg Bool.false_ne_true]
  cases named : isDomainName (mark isImportant isExclude
      (mapDomain { ruleLine := core, isSuffix, hasStart, hasEnd })) with
  | true =>
    obtain ⟨⟨rfl, rfl⟩, unmarked, bare⟩ := DomainText.rereads_named named
    rw [unmarked, bare] at named ⊢
    exact ⟨{ ruleLine := core, isRawDomain := true }, parseLine_named named, rfl, rfl, rfl,
      by simp [mapDomain], fun _ => rfl⟩
  | false =>
    rw [framed.parseLine_mark domain.absent named, framed.parseAdblockLine_mark, domain.readMarks]
    refine ⟨_, domain.parsePattern_eq { ruleLine := core, isImportant, isExclude, isSuffix,
                                        hasStart := !isSuffix && hasStart, hasEnd },
      rfl, rfl, rfl, ?_, nofun⟩
    cases isSuffix <;> rfl

/-! ## Regular expressions -/

variable {expression : Text}

theorem rereads_regexp (supported : ignoreIPCIDRRegexp expression = false)
    (exception : isExclude = true → '$' ∉ expression)
    (ordinary : isExclude = false → isImportant = false) :
    Rereads ext isImportant isExclude true expression := by
  have last : (('/' :: expression) ++ ['/']).getLast? = some '/' := getLast?_concat
  rw [cons_append] at last
  have framed : Framed isImportant isExclude ('/' :: (expression ++ ['/'])) := by
    refine ⟨cons_ne_nil _ _, by simp, by rw [last]; decide, by rw [last]; decide, ?_⟩
    cases isExclude with
    | true => exact .inl ⟨by simp [exception rfl], fun _ => nofun⟩
    | false => exact .inr ⟨rfl, rfl, ordinary rfl⟩
  have slash : '/' ∈ mark isImportant isExclude ('/' :: (expression ++ ['/'])) := by simp [mark]
  have unnamed : isDomainName (mark isImportant isExclude ('/' :: (expression ++ ['/']))) = false := by
    rw [← Bool.not_eq_true]
    exact fun named => not_mem_of_chars (chars_of_isDomainName named) rfl slash
  have starts : ∃ first, (mark isImportant isExclude ('/' :: (expression ++ ['/']))).head? =
      some first ∧ (first = '/' ∨ first = '@') := by
    rw [framed.head_mark]
    cases isExclude with
    | true => exact ⟨'@', rfl, .inr rfl⟩
    | false => exact ⟨'/', rfl, .inl rfl⟩
  obtain ⟨first, head, kind⟩ := starts
  have parsed : parsePattern (readEnd (readStart {
      ruleLine := '/' :: (expression ++ ['/']), isImportant, isExclude })) =
        .ok (some { ruleLine := expression, isImportant, isExclude, isRegexp := true }) := by
    rw [readStart_of_head (by simp), readEnd, if_neg (by rw [last]; decide)]
    simp only [parsePattern, last, head?_cons]
    simp [supported]
  have head_ne {char : Char} (notSlash : char ≠ '/') (notAt : char ≠ '@') :
      (mark isImportant isExclude ('/' :: (expression ++ ['/']))).head? ≠ some char := by
    rw [head]
    rintro ⟨⟩
    exact kind.elim notSlash notAt
  rw [← framed.parseAdblockLine_mark, ← parseLine_other (by simp [mark])
    (head_ne (by decide) (by decide)) (head_ne (by decide) (by decide)) unnamed
    (host_other kind head)] at parsed
  unfold Rereads
  rw [writeLine_eq, if_pos rfl]
  exact ⟨_, parsed, rfl, rfl, rfl, by simp [mapDomain], nofun⟩

/-- What `readScheme` leaves of a line ends as the line does. -/
theorem dollar_mem_readScheme (front : Text)
    (written : line.ruleLine = front ++ '$' :: importantKey) :
    '$' ∈ (readScheme line).ruleLine := by
  have ends : ('$' :: importantKey) <:+ line.ruleLine := written ▸ suffix_append _ _
  unfold readScheme
  split
  · rename_i before after found
    have tail : ('/' :: after) <:+ line.ruleLine := ⟨before ++ [':', '/'], by simp [eq_of_cut found]⟩
    rcases suffix_or_suffix_of_suffix tail ends with inside | inside
    · exact absurd (inside.mem mem_cons_self) (by decide)
    · simpa using inside.mem mem_cons_self
  · exact ends.mem mem_cons_self

/-- An important expression is written with a slash in front, so its modifier is not read and the
line is dropped. -/
theorem parseLine_important_regexp (expression : Text) :
    parseLine ext (writeLine true false true expression) = .ok none := by
  have shape : writeLine true false true expression =
      '/' :: (expression ++ '/' :: '$' :: importantKey) := by simp [writeLine]
  rw [shape]
  generalize written : '/' :: (expression ++ '/' :: '$' :: importantKey) = text
  have head : text.head? = some '/' := by rw [← written]; rfl
  have last : text.getLast? = some 't' := by
    rw [← written, ← cons_append, getLast_append (cons_ne_nil _ _)]
    decide
  have unnamed : isDomainName text = false := by
    rw [← Bool.not_eq_true]
    exact fun named => not_mem_of_chars (chars_of_isDomainName named) rfl (mem_of_head? head)
  have trimmed : trimEnd '|' text = text := trimEnd_of_ne (by rw [last]; decide)
  have plain : readExclude { ruleLine := text, isImportant := false } = { ruleLine := text } := by
    rw [← written]
    rfl
  rw [parseLine_other (by rw [← written]; exact cons_ne_nil _ _) (by rw [head]; decide)
    (by rw [head]; decide) unnamed (host_other (.inl rfl) head), parseAdblockLine, trimmed,
    splitModifiers, if_pos head]
  dsimp only
  rw [plain, trimmed, readStart_of_head (by rw [head]; decide), readEnd, if_neg (by rw [last]; decide),
    parsePattern, if_neg (by rw [last]; simp), parseDomain]
  split
  · rfl
  · have dollar : '$' ∈ (readScheme { ruleLine := text }).ruleLine :=
      dollar_mem_readScheme ('/' :: (expression ++ ['/'])) (by rw [← written]; simp)
    rw [if_neg fun named => not_mem_of_chars (chars_of_domainCheck named) rfl dollar]

theorem parsesUint8_of_mem (member : char ∈ text) (other : isDigit char = false) :
    parsesUint8 text = false := by
  have some : ∃ char ∈ text, isDigit char = false := ⟨char, member, other⟩
  simp [parsesUint8, all_eq_false.mpr (by simpa using some)]

/-- An expression behind an anchor does not start with an address. -/
theorem ignoreIPCIDRRegexp_bar (rest : Text) : ignoreIPCIDRRegexp ('|' :: rest) = false := by
  have whole : schemeless ('|' :: rest) = '|' :: rest := rfl
  have starts (first : Char) (more : Text) (other : first ≠ '|') :
      '|' ∈ substringBefore ('|' :: rest) (first :: more) := by
    unfold substringBefore cut
    rw [if_neg (by simp [other])]
    cases cut (first :: more) rest <;> simp
  rw [ignoreIPCIDRRegexp, whole, parsesUint8_of_mem (starts _ _ (by decide)) rfl,
    parsesUint8_of_mem (starts _ _ (by decide)) rfl]
  rfl

theorem schemeless_concat (nonempty : expression ≠ []) :
    schemeless (expression ++ ['^']) = schemeless expression ++ ['^'] := by
  have shortened (start : Text) (absent : '^' ∉ start) (starts : start.isPrefixOf expression = true) :
      (expression ++ ['^']).drop start.length = expression.drop start.length ++ ['^'] :=
    drop_append_of_le_length ( isPrefixOf_iff_prefix.mp starts).length_le
  unfold schemeless
  rw [isPrefixOf_concat (by decide), isPrefixOf_concat (by decide), head_append nonempty]
  split
  · rename_i starts
    exact shortened _ (by decide) starts
  · split
    · rename_i starts
      exact shortened _ (by decide) starts
    · split
      · cases expression with
        | nil => exact absurd rfl nonempty
        | cons first rest => rfl
      · rfl

theorem parsesUint8_concat {sep : Text} (absent : '^' ∉ sep)
    (small : parsesUint8 (substringBefore text sep) = false) :
    parsesUint8 (substringBefore (text ++ ['^']) sep) = false := by
  unfold substringBefore at small ⊢
  cases found : cut sep text with
  | none =>
    rw [cut_concat_eq_none found absent]
    exact parsesUint8_of_mem (show '^' ∈ text ++ ['^'] by simp) rfl
  | some parts =>
    rw [found] at small
    rw [cut_append_right found]
    exact small

theorem ignoreIPCIDRRegexp_concat (supported : ignoreIPCIDRRegexp expression = false) :
    ignoreIPCIDRRegexp (expression ++ ['^']) = false := by
  by_cases nonempty : expression = []
  · subst nonempty
    decide
  · unfold ignoreIPCIDRRegexp at supported ⊢
    rw [Bool.or_eq_false_iff] at supported
    rw [schemeless_concat nonempty, parsesUint8_concat (by decide) supported.1,
      parsesUint8_concat (by decide) supported.2]
    rfl

variable {line : AgdguardRuleLine}

/-- The anchors around an expression do not turn it into one that is ignored. -/
theorem ignoreIPCIDRRegexp_mapDomain (supported : ignoreIPCIDRRegexp line.ruleLine = false) :
    ignoreIPCIDRRegexp (mapDomain line) = false := by
  unfold mapDomain
  split
  · exact ignoreIPCIDRRegexp_bar _
  · split
    · exact ignoreIPCIDRRegexp_bar _
    · split
      · exact ignoreIPCIDRRegexp_concat supported
      · rwa [append_nil]

/-! ## What a parsed line carries -/

/-- A line that is not a bare domain or a host, as the parser leaves it. -/
structure Parsed (line : AgdguardRuleLine) : Prop where
  domain : line.isRegexp = false → DomainText line.ruleLine
  supported : line.isRegexp = true → ignoreIPCIDRRegexp line.ruleLine = false
  whole : '\n' ∉ line.ruleLine
  exception : line.isExclude = true → '$' ∉ line.ruleLine

/-- One step of the parser takes characters away and keeps what was decided before. -/
structure Shortens (line after : AgdguardRuleLine) : Prop where
  chars : ∀ char ∈ after.ruleLine, char ∈ line.ruleLine
  isExclude : after.isExclude = line.isExclude
  isRegexp : after.isRegexp = line.isRegexp

theorem Shortens.trans {middle after : AgdguardRuleLine} (first : Shortens line middle)
    (second : Shortens middle after) : Shortens line after where
  chars char member := first.chars char (second.chars char member)
  isExclude := second.isExclude.trans first.isExclude
  isRegexp := second.isRegexp.trans first.isRegexp

theorem readStart_shortens (line : AgdguardRuleLine) : Shortens line (readStart line) := by
  unfold readStart
  split
  · rename_i rest starts
    exact ⟨fun char member => by simp [starts, member], rfl, rfl⟩
  · rename_i rest _ starts
    exact ⟨fun char member => by simp [starts, member], rfl, rfl⟩
  · exact ⟨fun _ member => member, rfl, rfl⟩

theorem readEnd_shortens (line : AgdguardRuleLine) : Shortens line (readEnd line) := by
  unfold readEnd
  split
  · exact ⟨fun _ member => (dropLast_sublist _).subset member, rfl, rfl⟩
  · exact ⟨fun _ member => member, rfl, rfl⟩

theorem readScheme_shortens (line : AgdguardRuleLine) : Shortens line (readScheme line) := by
  unfold readScheme
  cases found : cut "://".toList line.ruleLine with
  | none => exact ⟨fun _ member => member, rfl, rfl⟩
  | some parts =>
    refine ⟨fun char member => ?_, rfl, rfl⟩
    rw [eq_of_cut found]
    exact mem_append_right _ member

theorem parsePattern_parsed {out : AgdguardRuleLine} (unset : line.isRegexp = false)
    (whole : '\n' ∉ line.ruleLine) (exception : line.isExclude = true → '$' ∉ line.ruleLine)
    (parsed : parsePattern line = .ok (some out)) : Parsed out := by
  unfold parsePattern at parsed
  split at parsed
  · split at parsed
    · cases parsed
    · simp only at parsed
      split at parsed
      · cases parsed
      · rename_i supported
        cases parsed
        have chars : ∀ char ∈ (line.ruleLine.drop 1).dropLast, char ∈ line.ruleLine :=
          fun char member => List.mem_of_mem_drop ((List.dropLast_sublist _).subset member)
        exact ⟨nofun, fun _ => by simpa using supported, fun inside => whole (chars _ inside),
          fun excluded inside => exception excluded (chars _ inside)⟩
  · have short := readScheme_shortens line
    revert short parsed
    generalize readScheme line = shown
    intro parsed short
    have kept : parseDomain shown = some out := Except.ok.inj parsed
    unfold parseDomain at kept
    split at kept
    · cases kept
    · rename_i supported
      split at kept
      · rename_i named
        cases kept
        simp only [Bool.or_eq_true, not_or, List.isEmpty_iff] at supported
        refine ⟨fun _ => ⟨supported.2, named⟩, fun regexp => ?_,
          fun inside => whole (short.chars _ inside),
          fun excluded inside => exception (short.isExclude ▸ excluded) (short.chars _ inside)⟩
        rw [short.isRegexp, unset] at regexp
        cases regexp
      · cases kept

theorem splitModifiers_some {body : Text}
    (divided : splitModifiers ext text = some (body, isImportant)) :
    (∀ char ∈ body, char ∈ text) ∧ (body.head? = some '/' ∨ '$' ∉ body) := by
  unfold splitModifiers at divided
  split at divided
  · rename_i slash
    cases divided
    exact ⟨fun _ member => member, .inl slash⟩
  · cases found : cut ['$'] text with
    | none =>
      rw [found] at divided
      cases divided
      exact ⟨fun _ member => member, .inr (not_mem_of_cut_eq_none found)⟩
    | some parts =>
      obtain ⟨before, params⟩ := parts
      simp only [found, Option.map_eq_some_iff, Prod.mk.injEq] at divided
      obtain ⟨_, -, rfl, -⟩ := divided
      refine ⟨fun char member => ?_, .inr (not_mem_of_cut found)⟩
      rw [eq_of_cut found]
      simp [member]

/-- Only a line that starts with `@@` is an exception, and its modifiers have been cut off. -/
theorem readExclude_spec {body : Text} (isImportant : Bool)
    (modifiers : body.head? = some '/' ∨ '$' ∉ body) :
    let line := readExclude { ruleLine := body, isImportant }
    (∀ char ∈ line.ruleLine, char ∈ body) ∧ line.isRegexp = false ∧
      (line.isExclude = true → '$' ∉ line.ruleLine) := by
  unfold readExclude
  split
  · rename_i rest starts
    subst starts
    rcases modifiers with slash | plain
    · cases slash
    · refine ⟨fun char member => by simp [member], rfl, fun _ inside => plain (by simp [inside])⟩
  · exact ⟨fun _ member => member, rfl, nofun⟩

theorem parseAdblockLine_parsed {out : AgdguardRuleLine} (whole : '\n' ∉ text)
    (parsed : parseAdblockLine ext text = .ok (some out)) : Parsed out := by
  unfold parseAdblockLine at parsed
  cases modified : splitModifiers ext (trimEnd '|' text) with
  | none => simp [modified] at parsed
  | some parts =>
    obtain ⟨body, isImportant⟩ := parts
    simp only [modified] at parsed
    obtain ⟨inText, modifiers⟩ := splitModifiers_some modified
    obtain ⟨inBody, unset, exception⟩ := readExclude_spec isImportant modifiers
    generalize readExclude { ruleLine := body, isImportant } = line at *
    have trimmed : Shortens line { line with ruleLine := trimEnd '|' line.ruleLine } :=
      ⟨fun _ member => mem_of_mem_trimEnd member, rfl, rfl⟩
    have short := (trimmed.trans (readStart_shortens _)).trans (readEnd_shortens _)
    refine parsePattern_parsed (short.isRegexp.trans unset) (fun inside => whole ?_)
      (fun excluded inside => ?_) parsed
    · exact mem_of_mem_trimEnd (inText _ (inBody _ (short.chars _ inside)))
    · exact exception (short.isExclude ▸ excluded) (short.chars _ inside)

theorem parseLine_parsed (whole : '\n' ∉ text) (adblock : line.isRawDomain = false)
    (parsed : parseLine ext text = .ok (some line)) : Parsed line := by
  unfold parseLine at parsed
  split at parsed
  · cases parsed
  · split at parsed
    · cases parsed
      cases adblock
    · cases host : parseAdGuardHostLine text with
      | other =>
        rw [host] at parsed
        exact parseAdblockLine_parsed whole parsed
      | skipped => simp [host] at parsed
      | host domain =>
        simp only [host, Except.ok.injEq, Option.some.injEq] at parsed
        subst parsed
        cases adblock

theorem parseLines_mem {texts : List Text} {lines : List AgdguardRuleLine}
    (parsed : parseLines ext texts = .ok lines) (member : line ∈ lines) :
    ∃ text ∈ texts, parseLine ext text = .ok (some line) := by
  induction texts generalizing lines with
  | nil =>
    cases parsed
    cases member
  | cons text rest ih =>
    obtain ⟨one, first, parsed⟩ := except_bind_ok parsed
    obtain ⟨more, others, parsed⟩ := except_bind_ok parsed
    cases parsed
    rcases mem_append.mp member with here | later
    · exact ⟨text, by simp, by rw [first, Option.mem_toList.mp here]⟩
    · obtain ⟨later, inside, same⟩ := ih others later
      exact ⟨later, by simp [inside], same⟩

/-- A parsed line can be written and read for its own kind, and an exception for the important
kind too. -/
theorem Parsed.rereads (parsed : Parsed line)
    (readable : line.isRegexp = true → line.isExclude = false → isImportant = false) :
    Rereads ext isImportant line.isExclude line.isRegexp (mapDomain line) := by
  cases regexp : line.isRegexp with
  | false => exact (parsed.domain regexp).rereads _ _ line.isSuffix line.hasStart line.hasEnd
  | true =>
    refine rereads_regexp (ignoreIPCIDRRegexp_mapDomain (parsed.supported regexp)) (fun excluded => ?_)
      (readable regexp)
    exact mapDomain_not_mem (parsed.exception excluded) (by decide) (by decide)

/-- A written line has no end-of-line marker in it or behind it. -/
theorem Parsed.scanLine (parsed : Parsed line)
    (fits : (writeLine isImportant isExclude line.isRegexp
      (mapDomain line)).length < maxScanTokenSize) :
    ScanLine (writeLine isImportant isExclude line.isRegexp (mapDomain line)) := by
  have inner := mapDomain_not_mem parsed.whole (by decide) (by decide)
  have key : '\n' ∉ importantKey := by decide
  refine ⟨?_, fun ends => ?_, fits⟩
  · cases isImportant <;> cases isExclude <;> cases line.isRegexp <;>
      simp [writeLine, inner, key]
  · rw [writeLine_eq] at ends
    cases regexp : line.isRegexp with
    | true =>
      rw [regexp, if_pos rfl] at ends
      rcases getLast_mark (cons_ne_nil _ _) ends with other | own
      · cases other
      · rw [← cons_append, getLast?_concat] at own
        cases own
    | false =>
      have framed := (parsed.domain regexp).framed isImportant isExclude line.isSuffix line.hasStart
        line.hasEnd
      rw [regexp, if_neg Bool.false_ne_true] at ends
      rcases getLast_mark framed.nonempty ends with other | own
      · cases other
      · exact framed.stop_cr own

end AmneziaBox.Guarantees.AdGuardReading
