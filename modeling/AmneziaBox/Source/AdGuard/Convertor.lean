import AmneziaBox.Library.Text
import AmneziaBox.Source.Rule.RuleSetItem

/-!
# The AdGuard convertor

Embeds `common/convertor/adguard/convertor.go`, and of `route/rule/rule_headless.go` and
`option/rule_set.go` what a converted rule passes through: of the options there are the fields
that `ToOptions` sets. A slice is nil or has elements, possibly none, because `IsValid`
compares the options with their zero value by `reflect.DeepEqual`, to which a nil slice and an
empty one are different.

Log lines and the count of ignored lines are left out. A line of one slash makes the source
slice out of range: such a text panics.
-/
namespace AmneziaBox.Source.AdGuard
open Library
open Adapter Rule

/-- What the convertor and the rules take from other packages. -/
structure Externals where
  /-- `M.ParseAddr(value).IsUnspecified()` of the package `sing` -/
  isUnspecified : Text → Bool
  /-- the case ranges of `unicode.ToLower` behind ASCII -/
  lowerTable : Char → Char
  /-- `Match` of the `domain.AdGuardMatcher` of `sing` for a list of lines -/
  adGuardMatcher : List Text → String → Bool
  /-- a list matches what one of its lines matches -/
  adGuardMatcher_any : ∀ lines host,
    adGuardMatcher lines host = lines.any fun line => adGuardMatcher [line] host
  /-- `regexp.Compile` and `MatchString` -/
  compile : Text → Option (String → Bool)

/-! ## `net.isDomainName` -/

structure NameScan where
  last : Char := '.'
  nonNumeric : Bool := false
  partlen : Nat := 0

def isLetter (char : Char) : Bool :=
  ('a' ≤ char && char ≤ 'z') || ('A' ≤ char && char ≤ 'Z') || char == '_'

def isDigit (char : Char) : Bool := '0' ≤ char && char ≤ '9'

/-- One round of the loop over the characters; `none` returns false. -/
def NameScan.next (scan : NameScan) (char : Char) : Option NameScan :=
  if isLetter char then some ⟨char, true, scan.partlen + 1⟩
  else if isDigit char then some ⟨char, scan.nonNumeric, scan.partlen + 1⟩
  else if char = '-' then
    if scan.last = '.' then none else some ⟨char, true, scan.partlen + 1⟩
  else if char = '.' then
    if scan.last = '.' ∨ scan.last = '-' ∨ scan.partlen > 63 ∨ scan.partlen = 0 then none
    else some ⟨char, scan.nonNumeric, 0⟩
  else none

/-- `M.IsDomainName`. -/
def isDomainName (text : Text) : Bool :=
  if text = ['.'] then true
  else if text = [] ∨ text.length > 254 ∨ (text.length = 254 ∧ text.getLast? ≠ some '.') then false
  else
    match text.foldlM NameScan.next {} with
    | none => false
    | some scan => scan.last != '-' && scan.partlen ≤ 63 && scan.nonNumeric

/-! ## `netip.ParseAddr` -/

/-- The fields of a dotted address so far, and the value and the length of the current one. -/
structure FieldScan where
  fields : List Nat := []
  val : Nat := 0
  digLen : Nat := 0

def FieldScan.next (scan : FieldScan) (char : Char) : Option FieldScan :=
  if isDigit char then
    let val := scan.val * 10 + (char.toNat - '0'.toNat)
    if (scan.digLen = 1 ∧ scan.val = 0) ∨ val > 255 then none
    else some ⟨scan.fields, val, scan.digLen + 1⟩
  else if char = '.' then
    if scan.digLen = 0 ∨ scan.fields.length = 3 then none
    else some ⟨scan.fields ++ [scan.val], 0, 0⟩
  else none

def parseIPv4Fields (text : Text) : Option (List Nat) := do
  let scan ← text.foldlM FieldScan.next {}
  if scan.fields.length < 3 ∨ scan.digLen = 0 then none
  else some (scan.fields ++ [scan.val])

def hexDigit (char : Char) : Option Nat :=
  if isDigit char then some (char.toNat - '0'.toNat)
  else if 'a' ≤ char ∧ char ≤ 'f' then some (char.toNat - 'a'.toNat + 10)
  else if 'A' ≤ char ∧ char ≤ 'F' then some (char.toNat - 'A'.toNat + 10)
  else none

/-- The loop of `parseIPv6` over at most `rounds` groups: the bytes, where among them the ellipsis
stands, and the text behind them. -/
def parseGroups : Nat → List Nat → Option Nat → Text → Option (List Nat × Option Nat × Text)
  | 0, ip, ellipsis, text => some (ip, ellipsis, text)
  | rounds + 1, ip, ellipsis, text =>
    let digits := (text.map hexDigit).takeWhile Option.isSome
    let acc := digits.reduceOption.foldl (fun acc digit => acc * 16 + digit) 0
    let saved := ip ++ [acc / 256, acc % 256]
    if digits.isEmpty ∨ digits.length > 4 then none
    else
      match text.drop digits.length with
      | [] => some (saved, ellipsis, [])
      | '.' :: _ =>
        if (ellipsis = none ∧ ip.length ≠ 12) ∨ ip.length + 4 > 16 then none
        else (parseIPv4Fields text).map fun fields => (ip ++ fields, ellipsis, [])
      | [':', ':'] => if ellipsis.isSome then none else some (saved, some saved.length, [])
      | ':' :: ':' :: rest =>
        if ellipsis.isSome then none else parseGroups rounds saved (some saved.length) rest
      | ':' :: first :: rest => parseGroups rounds saved ellipsis (first :: rest)
      | _ => none

/-- The groups, possibly behind an ellipsis. -/
def parseAllGroups : Text → Option (List Nat × Option Nat × Text)
  | [':', ':'] => some ([], some 0, [])
  | ':' :: ':' :: rest => parseGroups 8 [] (some 0) rest
  | text => parseGroups 8 [] none text

/-- An ellipsis stands for at least one group of zeros. -/
def expand (ip : List Nat) : Option Nat → Option (List Nat)
  | none => if ip.length < 16 then none else some ip
  | some ellipsis =>
    if ip.length < 16 then
      some (ip.take ellipsis ++ List.replicate (16 - ip.length) 0 ++ ip.drop ellipsis)
    else none

def fromBytes (ip : List Nat) : Nat := ip.foldl (fun value byte => value * 256 + byte) 0

/-- The address and its zone. -/
def parseIPv6 (text : Text) : Option (Addr × Text) := do
  let (text, zone) ←
    match cut ['%'] text with
    | none => some (text, [])
    | some (before, zone) => if zone = [] then none else some (before, zone)
  let (ip, ellipsis, rest) ← parseAllGroups text
  if rest ≠ [] then none
  else
    let ip ← expand ip ellipsis
    return (.ipv6 (BitVec.ofNat 128 (fromBytes ip)), zone)

def parseAddr (text : Text) : Option (Addr × Text) :=
  match text.find? ['.', ':', '%'].contains with
  | some '.' => (parseIPv4Fields text).map fun ip => (.ipv4 (BitVec.ofNat 32 (fromBytes ip)), [])
  | some ':' => parseIPv6 text
  | _ => none

/-- `Addr.IsUnspecified`; an address with a zone is none. -/
def isUnspecified (addr : Addr × Text) : Bool := addr = (.ipv4 0, []) || addr = (.ipv6 0, [])

example : (parseAddr "fe80::1%eth0".toList, (parseAddr "::".toList).map isUnspecified,
    parseAddr "1::2::3".toList, parseAddr "::ffff:1.2.3.4".toList) =
    (some (.ipv6 0xfe800000000000000000000000000001, "eth0".toList), some true, none,
      some (.ipv6 0xffff01020304, [])) := by decide +kernel

/-! ## Lines -/

structure AgdguardRuleLine where
  ruleLine : Text
  isRawDomain : Bool := false
  isExclude : Bool := false
  isSuffix : Bool := false
  hasStart : Bool := false
  hasEnd : Bool := false
  isRegexp : Bool := false
  isImportant : Bool := false
  deriving DecidableEq, Repr

inductive ConvertError where
  /-- "AdGuard rule-set is empty or all rules are unsupported" -/
  | empty
  /-- `ErrInvalid`, "invalid binary AdGuard rule-set" -/
  | invalid
  /-- a run-time panic -/
  | panics
  deriving DecidableEq, Repr

/-- `strconv.ParseUint(text, 10, 8)` without an error. -/
def parsesUint8 (text : Text) : Bool :=
  !text.isEmpty && text.all isDigit &&
    text.foldl (fun value digit => value * 10 + (digit.toNat - '0'.toNat)) 0 ≤ 255

/-- `common.SubstringBefore`. -/
def substringBefore (text sep : Text) : Text :=
  match cut sep text with
  | some (before, _) => before
  | none => text

/-- The expression without the scheme or the anchor in front of it. -/
def schemeless (ruleLine : Text) : Text :=
  if "(http?:\\/\\/)".toList.isPrefixOf ruleLine then ruleLine.drop 12
  else if "(https?:\\/\\/)".toList.isPrefixOf ruleLine then ruleLine.drop 13
  else if ruleLine.head? = some '^' then ruleLine.drop 1
  else ruleLine

def ignoreIPCIDRRegexp (ruleLine : Text) : Bool :=
  parsesUint8 (substringBefore (schemeless ruleLine) ['\\', '.']) ||
    parsesUint8 (substringBefore (schemeless ruleLine) ['.'])

inductive HostLine where
  /-- an error: the line is something else -/
  | other
  /-- a host at another address -/
  | skipped
  | host (domain : Text)

def parseAdGuardHostLine (ruleLine : Text) : HostLine :=
  match cut [' '] ruleLine with
  | none => .other
  | some (before, domain) =>
    match parseAddr before with
    | none => .other
    | some address =>
      if !isUnspecified address then .skipped
      else if isDomainName domain then .host domain
      else .other

variable (ext : Externals)

def importantKey : Text := "important".toList
def dnsrewriteKey : Text := "dnsrewrite".toList

/-- One modifier; the result is whether it is `important`, if it is supported. -/
def readParam (param : Text) : Option Bool :=
  match param.splitOn '=' with
  | [key] => if key = importantKey then some true else none
  | [key, value] =>
    if key = importantKey then some true
    else if key = dnsrewriteKey ∧ ext.isUnspecified value then some false
    else none
  | _ => none

/-- The loop over the modifiers; one that is not supported ends the line. -/
def readParams : List Text → Option Bool
  | [] => some false
  | param :: rest => do
    let important ← readParam ext param
    let others ← readParams rest
    return important || others

/-- The line without its modifiers, and whether `important` is among them. -/
def splitModifiers (ruleLine : Text) : Option (Text × Bool) :=
  if ruleLine.head? = some '/' then some (ruleLine, false)
  else
    match cut ['$'] ruleLine with
    | none => some (ruleLine, false)
    | some (before, params) =>
      (readParams ext (params.splitOn ',')).map fun isImportant => (before, isImportant)

/-- The characters of rules that are not about domains: paths, queries, cosmetic filters and
other modifiers. -/
def unsupportedChars : List Char := ['/', '?', '&', '[', ']', '(', ')', '!', '#', '~']

def domainCheck (ruleLine : Text) : Text :=
  (if ruleLine.head? = some '.' ∨ ruleLine.head? = some '-' then 'r' :: ruleLine else ruleLine).map
    fun char => if char = '*' then 'x' else char

/-- A scheme in front of the domain. -/
def readScheme (line : AgdguardRuleLine) : AgdguardRuleLine :=
  match cut "://".toList line.ruleLine with
  | some (_, after) => { line with ruleLine := after, isSuffix := true }
  | none => line

/-- The checks of a pattern that is not a regular expression. -/
def parseDomain (line : AgdguardRuleLine) : Option AgdguardRuleLine :=
  if unsupportedChars.any line.ruleLine.contains || line.ruleLine.isEmpty then none
  else if isDomainName (domainCheck line.ruleLine) then some line
  else none

/-- The end of the loop's body: a regular expression between slashes, or a domain. -/
def parsePattern (line : AgdguardRuleLine) : Except ConvertError (Option AgdguardRuleLine) :=
  if line.ruleLine.head? = some '/' ∧ line.ruleLine.getLast? = some '/' then
    if line.ruleLine.length < 2 then .error .panics
    else
      let inner := (line.ruleLine.drop 1).dropLast
      if ignoreIPCIDRRegexp inner then .ok none
      else .ok (some { line with ruleLine := inner, isRegexp := true })
  else .ok (parseDomain (readScheme line))

/-- The anchors `||` and `|` in front of the pattern. -/
def readStart (line : AgdguardRuleLine) : AgdguardRuleLine :=
  match line.ruleLine with
  | '|' :: '|' :: rest => { line with ruleLine := rest, isSuffix := true }
  | '|' :: rest => { line with ruleLine := rest, hasStart := true }
  | _ => line

/-- The anchor `^` behind the pattern. -/
def readEnd (line : AgdguardRuleLine) : AgdguardRuleLine :=
  if line.ruleLine.getLast? = some '^' then
    { line with ruleLine := line.ruleLine.dropLast, hasEnd := true }
  else line

/-- `@@` marks an exception. -/
def readExclude (line : AgdguardRuleLine) : AgdguardRuleLine :=
  match line.ruleLine with
  | '@' :: '@' :: rest => { line with ruleLine := rest, isExclude := true }
  | _ => line

/-- A line that is neither a bare domain nor a host line. -/
def parseAdblockLine (ruleLine : Text) : Except ConvertError (Option AgdguardRuleLine) :=
  match splitModifiers ext (trimEnd '|' ruleLine) with
  | none => .ok none
  | some (ruleLine, isImportant) =>
    let line := readExclude { ruleLine, isImportant }
    parsePattern (readEnd (readStart { line with ruleLine := trimEnd '|' line.ruleLine }))

/-- One round of `parseLine`: the rule line it appends, if any. -/
def parseLine (ruleLine : Text) : Except ConvertError (Option AgdguardRuleLine) :=
  if ruleLine.isEmpty || ruleLine.head? = some '!' || ruleLine.head? = some '#' then .ok none
  else if isDomainName ruleLine then .ok (some { ruleLine, isRawDomain := true })
  else
    match parseAdGuardHostLine ruleLine with
    | .host domain =>
      .ok (some { ruleLine := domain, isRawDomain := true, hasStart := true, hasEnd := true })
    | .skipped => .ok none
    | .other => parseAdblockLine ext ruleLine

def parseLines : List Text → Except ConvertError (List AgdguardRuleLine)
  | [] => .ok []
  | line :: rest => do
    let parsed ← parseLine ext line
    let others ← parseLines rest
    return parsed.toList ++ others

/-- The rule lines of a filter text. -/
def ruleLines (text : Text) : Except ConvertError (List AgdguardRuleLine) :=
  parseLines ext (scanLines text)

/-! ## Options -/

abbrev Slice (α : Type) := Option (List α)

/-- The elements of a slice; a nil slice has none. -/
def Slice.elements {α : Type} (slice : Slice α) : List α := slice.getD []

/-- `option.DefaultHeadlessRule`. -/
structure DefaultOptions where
  domain : Slice Text := none
  domainRegex : Slice Text := none
  invert : Bool := false
  adGuardDomain : Slice Text := none
  deriving DecidableEq, Repr

/-- `option.HeadlessRule`. -/
abbrev RuleOptions := RuleTree DefaultOptions

def mapDomain (it : AgdguardRuleLine) : Text :=
  (if it.isSuffix then '|' :: '|' :: it.ruleLine
    else if it.hasStart then '|' :: it.ruleLine
    else it.ruleLine) ++ if it.hasEnd then ['^'] else []

/-- Two of the eight lists: the domains and the regular expressions of one kind of line. -/
structure Patterns where
  domain : List Text := []
  domainRegex : List Text := []
  deriving DecidableEq, Repr

def Patterns.isEmpty (patterns : Patterns) : Bool :=
  patterns.domain.isEmpty && patterns.domainRegex.isEmpty

/-- The lines of one kind, as `common.Map(common.Filter(...), mapDomain)`. -/
def select (lines : List AgdguardRuleLine) (isImportant isExclude isRegexp : Bool) : List Text :=
  (lines.filter fun it =>
    it.isImportant == isImportant && it.isRegexp == isRegexp && it.isExclude == isExclude).map
    mapDomain

def patternsOf (lines : List AgdguardRuleLine) (isImportant isExclude : Bool) : Patterns where
  domain := select lines isImportant isExclude false
  domainRegex := select lines isImportant isExclude true

structure Groups where
  important : Patterns := {}
  importantExclude : Patterns := {}
  ordinary : Patterns := {}
  exclude : Patterns := {}
  deriving DecidableEq, Repr

def groupsOf (lines : List AgdguardRuleLine) : Groups where
  important := patternsOf lines true false
  importantExclude := patternsOf lines true true
  ordinary := patternsOf lines false false
  exclude := patternsOf lines false true

/-- `common.Map` never returns a nil slice. -/
def Patterns.options (patterns : Patterns) (invert : Bool) : DefaultOptions where
  adGuardDomain := some patterns.domain
  domainRegex := some patterns.domainRegex
  invert := invert

/-- A rule in front of the current one; a kind without lines adds none. -/
def wrap (mode : LogicalType) (patterns : Patterns) (invert : Bool) (currentRule : RuleOptions) :
    RuleOptions :=
  if patterns.isEmpty then currentRule
  else .logical mode [.default (patterns.options invert), currentRule] false

def Groups.rule (groups : Groups) : RuleOptions :=
  wrap .and groups.importantExclude true <|
    wrap .or groups.important false <|
      wrap .and groups.exclude true <|
        .default (groups.ordinary.options false)

/-- A list in which every line is a bare domain or a host line becomes a list of domains. -/
def ruleOf (lines : List AgdguardRuleLine) : RuleOptions :=
  if lines.all AgdguardRuleLine.isRawDomain then
    .default { domain := some (lines.map AgdguardRuleLine.ruleLine) }
  else (groupsOf lines).rule

def toOptions (text : Text) : Except ConvertError (List RuleOptions) := do
  let lines ← ruleLines ext text
  if lines.isEmpty then throw .empty
  else return [ruleOf lines]

/-! ## Back to text -/

def DefaultOptions.patterns (options : DefaultOptions) : Patterns where
  domain := options.adGuardDomain.elements
  domainRegex := options.domainRegex.elements

/-- The loop `parse` of `FromOptions`. The first inverted rule under `and` is read as the important
exceptions, whichever of the two it was written for. -/
def readGroups : RuleOptions → Groups → Except ConvertError Groups
  | .default options, groups =>
    if options.patterns.isEmpty then .error .invalid
    else .ok { groups with ordinary := options.patterns }
  | .logical mode [.default first, next] _, groups =>
    if first.patterns.isEmpty then .error .invalid
    else
      match mode, first.invert with
      | .and, true =>
        if groups.importantExclude.isEmpty then
          readGroups next { groups with importantExclude := first.patterns }
        else readGroups next { groups with exclude := first.patterns }
      | .or, false => readGroups next { groups with important := first.patterns }
      | _, _ => .error .invalid
  | .logical _ _ _, _ => .error .invalid

/-- One line of the output, without its end-of-line marker. -/
def writeLine (isImportant isExclude isRegexp : Bool) (ruleLine : Text) : Text :=
  (if isExclude then ['@', '@'] else []) ++
    (if isRegexp then '/' :: (ruleLine ++ ['/']) else ruleLine) ++
    if isImportant then '$' :: importantKey else []

def Patterns.lines (patterns : Patterns) (isImportant isExclude : Bool) : List Text :=
  patterns.domain.map (writeLine isImportant isExclude false) ++
    patterns.domainRegex.map (writeLine isImportant isExclude true)

def Groups.lines (groups : Groups) : List Text :=
  groups.important.lines true false ++ groups.importantExclude.lines true true ++
    groups.ordinary.lines false false ++ groups.exclude.lines false true

def fromOptions : List RuleOptions → Except ConvertError Text
  | [rule] => do
    let groups ← readGroups rule {}
    return unlines groups.lines
  | _ => .error .invalid

/-! ## The rule built from the options -/

inductive RuleError where
  /-- "missing conditions" -/
  | missingConditions
  /-- "domain: empty item is not allowed" -/
  | emptyDomain
  /-- "domain_regex: parse expression ", with the index of the expression -/
  | domainRegex (index : Nat)
  /-- "sub rule[", with the index of the rule -/
  | subRule (index : Nat) (cause : RuleError)
  deriving DecidableEq, Repr

/-- The domain the items look at, lower-cased; empty if there is none. -/
def domainHost (input : MatchInput) : String :=
  if input.domain ≠ "" then input.domain else input.destination.fqdn

/-- `strings.ToLower`. -/
def toLower (text : String) : String :=
  text.map fun char => if char.toNat < 128 then char.toLower else ext.lowerTable char

/-- `Match` of the three items. -/
def hostItem (matcher : String → Bool) : RuleItem := fun input =>
  if domainHost input = "" then false else matcher (toLower ext (domainHost input))

def newDomainItem (domains : List Text) : Except RuleError RuleItem :=
  if domains.contains [] then .error .emptyDomain
  else .ok (hostItem ext fun host => domains.contains host.toList)

/-- The loop of `NewDomainRegexItem`. -/
def compileAll (index : Nat) : List Text → Except RuleError (List (String → Bool))
  | [] => .ok []
  | expression :: rest =>
    match ext.compile expression with
    | none => .error (.domainRegex index)
    | some matcher => (compileAll (index + 1) rest).map (matcher :: ·)

def newDomainRegexItem (expressions : List Text) : Except RuleError RuleItem :=
  (compileAll ext 0 expressions).map fun matchers =>
    hostItem ext fun host => matchers.any fun matcher => matcher host

def newAdGuardDomainItem (ruleLines : List Text) : RuleItem :=
  hostItem ext (ext.adGuardMatcher ruleLines)

/-- `DefaultHeadlessRule.IsValid`: the options are not the zero value. -/
def DefaultOptions.isValid (options : DefaultOptions) : Bool :=
  options ≠ { invert := options.invert }

/-- An item for a list of options that has elements. -/
def itemOf (slice : Slice Text) (build : List Text → Except RuleError RuleItem) :
    Except RuleError (List RuleItem) :=
  if slice.elements.isEmpty then .ok [] else (build slice.elements).map ([·])

def newDefaultHeadlessRule (options : DefaultOptions) : Except RuleError DefaultHeadlessRule := do
  let domainItems ← itemOf options.domain (newDomainItem ext)
  let regexItems ← itemOf options.domainRegex (newDomainRegexItem ext)
  let adGuardItems ← itemOf options.adGuardDomain fun lines => .ok (newAdGuardDomainItem ext lines)
  return {
    destinationAddressItems := domainItems ++ regexItems ++ adGuardItems
    invert := options.invert }

mutual
/-- `HeadlessRule.IsValid`. -/
def isValid : RuleOptions → Bool
  | .default options => options.isValid
  | .logical _ rules _ => !rules.isEmpty && allValid rules

def allValid : List RuleOptions → Bool
  | [] => true
  | rule :: rest => isValid rule && allValid rest
end

mutual
def newHeadlessRule : RuleOptions → Except RuleError HeadlessRule
  | .default options =>
    if options.isValid then (newDefaultHeadlessRule ext options).map .default
    else .error .missingConditions
  | .logical mode rules invert =>
    if !rules.isEmpty && allValid rules then
      (newSubRules 0 rules).map fun rules => .logical mode rules invert
    else .error .missingConditions

/-- The loop of `NewLogicalHeadlessRule`. -/
def newSubRules (index : Nat) : List RuleOptions → Except RuleError (List HeadlessRule)
  | [] => .ok []
  | rule :: rest =>
    match newHeadlessRule rule with
    | .error cause => .error (.subRule index cause)
    | .ok rule => (newSubRules (index + 1) rest).map (rule :: ·)
end

end AmneziaBox.Source.AdGuard
