import SyntaxGraph.Regex.Tree

/-!
Reading regular expressions: literals, classes with set operations, groups with flags, counted
repetition, assertions and named properties. There are no back references and no look-around.
Under the flag for free spacing, white space and comments between tokens are passed over.
-/

set_option autoImplicit false

namespace SyntaxGraph

namespace Regex

/-- What is left to be read, whether spacing is free, and the names of groups so far. -/
structure Scanner where
  rest : List Char
  freeSpacing : Bool
  names : List String
deriving DecidableEq, Repr

def skipIgnored (inComment : Bool) : List Char → List Char
  | [] => []
  | character :: rest =>
      if inComment then skipIgnored (character ≠ '\n') rest
      else if Text.isWhiteSpace character then skipIgnored false rest
      else if character = '#' then skipIgnored true rest
      else character :: rest

namespace Scanner

def skipSpace (scanner : Scanner) : Scanner :=
  if scanner.freeSpacing then { scanner with rest := skipIgnored false scanner.rest } else scanner

def drop (scanner : Scanner) (count : Nat) : Scanner :=
  { scanner with rest := scanner.rest.drop count }

def advance (scanner : Scanner) : Scanner := (scanner.drop 1).skipSpace

def peek (scanner : Scanner) : Option Char := scanner.rest.head?

def peekSpace (scanner : Scanner) : Option Char := scanner.advance.peek

def expect? (scanner : Scanner) (text : String) : Option Scanner :=
  if text.toList.isPrefixOf scanner.rest then some (scanner.drop text.length) else none

end Scanner

-- Numbers

def hexValue? (character : Char) : Option Nat :=
  if '0' ≤ character && character ≤ '9' then some (character.toNat - '0'.toNat)
  else if 'a' ≤ character && character ≤ 'f' then some (character.toNat - 'a'.toNat + 10)
  else if 'A' ≤ character && character ≤ 'F' then some (character.toNat - 'A'.toNat + 10)
  else none

def scalar? (code : Nat) : Option Char :=
  if code < 0xD800 || (0xE000 ≤ code && code < 0x110000) then some (Char.ofNat code) else none

def readHexDigits : Nat → Nat → Scanner → Option (Nat × Scanner)
  | 0, value, scanner => some (value, scanner)
  | count + 1, value, scanner => do
      let digit ← hexValue? (← scanner.peek)
      let next := if count = 0 then scanner.drop 1 else scanner.advance
      readHexDigits count (value * 16 + digit) next

def readHexBrace : Nat → List Nat → Scanner → Option (List Nat × Scanner)
  | 0, _, _ => none
  | bound + 1, digits, scanner => do
      let character ← scanner.peek
      if character = '\x7d' then return (digits, scanner.advance)
      readHexBrace bound ((← hexValue? character) :: digits) scanner.advance

def readHex (count : Nat) (scanner : Scanner) : Option (Literal × Scanner) := do
  let start := scanner.advance
  if start.peek = some '\x7b' then
    let (digits, next) ← readHexBrace start.rest.length [] start.advance
    if digits.isEmpty then failure
    let value := digits.foldr (fun digit value => value * 16 + digit) 0
    return (⟨← scalar? value, false⟩, next)
  else
    let (value, next) ← readHexDigits count 0 start
    return (⟨← scalar? value, count = 2⟩, next.skipSpace)

def skipWhite (scanner : Scanner) : Scanner :=
  { scanner with rest := scanner.rest.dropWhile Text.isWhiteSpace }

def readDigits : Nat → List Char → Scanner → List Char × Scanner
  | 0, reversed, scanner => (reversed.reverse, scanner)
  | bound + 1, reversed, scanner =>
      match scanner.peek with
      | some character =>
          if character.isDigit then readDigits bound (character :: reversed) scanner.advance
          else (reversed.reverse, scanner)
      | none => (reversed.reverse, scanner)

def maxCount : Nat := UInt32.size - 1

def readCount (scanner : Scanner) : Option (Nat × Scanner) := do
  let start := skipWhite scanner
  let (digits, next) := readDigits start.rest.length [] start
  if digits.isEmpty then failure
  let value := digits.foldl (fun value digit => value * 10 + (digit.toNat - '0'.toNat)) 0
  if value ≤ maxCount then return (value, skipWhite next) else none

-- Escapes

inductive Atom where
  | literal (literal : Literal)
  | assertion (assertion : Assertion)
  | escape (name : EscapeClass) (negated : Bool)
  | property (name : CharProperty) (negated : Bool)
  | dot

def categoryNames : List (String × String) :=
  [("letter", "L"), ("uppercaseletter", "Lu"), ("lowercaseletter", "Ll"), ("titlecaseletter", "Lt"),
   ("modifierletter", "Lm"), ("otherletter", "Lo"), ("mark", "M"), ("combiningmark", "M"),
   ("nonspacingmark", "Mn"), ("spacingmark", "Mc"), ("enclosingmark", "Me"), ("number", "N"),
   ("decimalnumber", "Nd"), ("digit", "Nd"), ("letternumber", "Nl"), ("othernumber", "No"),
   ("punctuation", "P"), ("punct", "P"), ("connectorpunctuation", "Pc"), ("dashpunctuation", "Pd"),
   ("openpunctuation", "Ps"), ("closepunctuation", "Pe"), ("initialpunctuation", "Pi"),
   ("finalpunctuation", "Pf"), ("otherpunctuation", "Po"), ("symbol", "S"), ("mathsymbol", "Sm"),
   ("currencysymbol", "Sc"), ("modifiersymbol", "Sk"), ("othersymbol", "So"), ("separator", "Z"),
   ("spaceseparator", "Zs"), ("lineseparator", "Zl"), ("paragraphseparator", "Zp"), ("other", "C"),
   ("control", "Cc"), ("cntrl", "Cc"), ("format", "Cf"), ("surrogate", "Cs"), ("privateuse", "Co"),
   ("unassigned", "Cn")]

def shortCategories : List String :=
  ["L", "Lu", "Ll", "Lt", "Lm", "Lo", "M", "Mn", "Mc", "Me", "N", "Nd", "Nl", "No", "P", "Pc", "Pd",
   "Ps", "Pe", "Pi", "Pf", "Po", "S", "Sm", "Sc", "Sk", "So", "Z", "Zs", "Zl", "Zp", "C", "Cc", "Cf",
   "Cs", "Co", "Cn"]

def categoryProperty (name : String) : Option CharProperty :=
  match name.toList with
  | [letter] => some (.major letter)
  | [major, minor] => some (.category ⟨major, minor⟩)
  | _ => none

/-- Names compare without case, spaces, underscores and hyphens, and without `is` in front. -/
def normalizeName (name : List Char) : List Char :=
  let lower := (name.map Char.toLower).filter fun character =>
    character ≠ ' ' && character ≠ '_' && character ≠ '-'
  match lower with
  | 'i' :: 's' :: rest => if rest.isEmpty then lower else rest
  | _ => lower

def categoryOfName? (name : List Char) : Option CharProperty :=
  let normal := String.ofList (normalizeName name)
  match shortCategories.find? fun short => short.map Char.toLower = normal with
  | some short => categoryProperty short
  | none => ((categoryNames.find? fun entry => entry.1 = normal).map (·.2)).bind categoryProperty

def propertyOfName? (name : List Char) : Option CharProperty :=
  match String.ofList (normalizeName name) with
  | "any" => some .any
  | "assigned" => some .assigned
  | "ascii" => some .ascii
  | "alphabetic" | "alpha" => some .alphabetic
  | "whitespace" | "wspace" | "space" => some .whiteSpace
  | "lc" | "casedletter" => some .casedLetter
  | _ => categoryOfName? name

/-- The property that stands between braces: a name, or a category as `name=value`. -/
def readPropertyName (name : List Char) : Option (CharProperty × Bool) :=
  let value (separator : List Char) (negated : Bool) : Option (CharProperty × Bool) := do
    let key := name.takeWhile fun character => !separator.contains character
    let rest := (name.drop key.length).drop separator.length
    let normal := String.ofList (normalizeName key)
    if normal = "gc" || normal = "generalcategory" then
      return (← categoryOfName? rest, negated)
    else none
  if name.contains '!' then value ['!', '='] true
  else if name.contains ':' then value [':'] false
  else if name.contains '=' then value ['='] false
  else (propertyOfName? name).map fun property => (property, false)

def readBraced : Nat → List Char → Scanner → Option (List Char × Scanner)
  | 0, _, _ => none
  | bound + 1, reversed, scanner => do
      let character ← scanner.peek
      if character = '\x7d' then return (reversed.reverse, scanner.drop 1)
      readBraced bound (character :: reversed) scanner.advance

def readProperty (negated : Bool) (scanner : Scanner) : Option (Atom × Scanner) := do
  let start := scanner.advance
  let character ← start.peek
  if character = '\x7b' then
    let (name, next) ← readBraced start.rest.length [] start.advance
    let (property, differs) ← readPropertyName name
    return (.property property (negated != differs), next)
  else if character = '\\' then none
  else return (.property (← propertyOfName? [character]) negated, start.advance)

/-- A boundary in braces behind the mark of a word boundary. Where the brace opens a count
instead, nothing is read. -/
def readWordBoundary (scanner : Scanner) : Option (Atom × Scanner) :=
  let isNameChar (character : Char) : Bool := character.isAlpha || character = '-'
  if scanner.peek ≠ some '\x7b' then some (.assertion .wordBoundary, scanner)
  else
    let start := scanner.advance
    match start.peek with
    | none => none
    | some character =>
        if !isNameChar character then some (.assertion .wordBoundary, scanner)
        else do
          let (name, next) ← readBraced start.rest.length [] start
          match String.ofList name with
          | "start" => return (.assertion .wordStart, next)
          | "end" => return (.assertion .wordEnd, next)
          | "start-half" => return (.assertion .wordStartHalf, next)
          | "end-half" => return (.assertion .wordEndHalf, next)
          | _ => none

/-- ASCII characters that are neither letters, digits nor angle brackets stand for themselves. -/
def isEscapable (character : Char) : Bool :=
  character.val < 128 && !character.isAlphanum && character ≠ '<' && character ≠ '>'

def readEscape (scanner : Scanner) : Option (Atom × Scanner) := do
  let start := scanner.drop 1
  let character ← start.peek
  let literal (value : Char) : Option (Atom × Scanner) := some (.literal ⟨value, false⟩, start.drop 1)
  let assertion (value : Assertion) : Option (Atom × Scanner) := some (.assertion value, start.drop 1)
  let escape (name : EscapeClass) (negated : Bool) : Option (Atom × Scanner) :=
    some (.escape name negated, start.drop 1)
  let hex (count : Nat) : Option (Atom × Scanner) :=
    (readHex count start).map fun (value, next) => (.literal value, next)
  match character with
  | 'x' => hex 2
  | 'u' => hex 4
  | 'U' => hex 8
  | 'p' => readProperty false start
  | 'P' => readProperty true start
  | 'd' => escape .digit false
  | 'D' => escape .digit true
  | 's' => escape .space false
  | 'S' => escape .space true
  | 'w' => escape .word false
  | 'W' => escape .word true
  | 'a' => literal '\x07'
  | 'f' => literal '\x0c'
  | 't' => literal '\t'
  | 'n' => literal '\n'
  | 'r' => literal '\r'
  | 'v' => literal '\x0b'
  | 'A' => assertion .textStart
  | 'z' => assertion .textEnd
  | 'b' => readWordBoundary (start.drop 1)
  | 'B' => assertion .noWordBoundary
  | '<' => assertion .wordStart
  | '>' => assertion .wordEnd
  | other => if isEscapable other then literal other else none

def readAtom (scanner : Scanner) : Option (Atom × Scanner) := do
  match ← scanner.peek with
  | '\\' => readEscape scanner
  | '.' => return (.dot, scanner.drop 1)
  | '^' => return (.assertion .lineStart, scanner.drop 1)
  | '$' => return (.assertion .lineEnd, scanner.drop 1)
  | character => return (.literal ⟨character, false⟩, scanner.drop 1)

-- Classes in brackets

def asciiClasses : List (String × List (Char × Char)) :=
  [("alnum", [('0', '9'), ('A', 'Z'), ('a', 'z')]), ("alpha", [('A', 'Z'), ('a', 'z')]),
   ("ascii", [('\x00', '\x7f')]), ("blank", [('\t', '\t'), (' ', ' ')]),
   ("cntrl", [('\x00', '\x1f'), ('\x7f', '\x7f')]), ("digit", [('0', '9')]),
   ("graph", [('!', '~')]), ("lower", [('a', 'z')]), ("print", [(' ', '~')]),
   ("punct", [('!', '/'), (':', '@'), ('[', '\x60'), ('\x7b', '~')]),
   ("space", [('\t', '\t'), ('\n', '\n'), ('\x0b', '\x0b'), ('\x0c', '\x0c'), ('\r', '\r'),
     (' ', ' ')]),
   ("upper", [('A', 'Z')]), ("word", [('0', '9'), ('A', 'Z'), ('a', 'z'), ('_', '_')]),
   ("xdigit", [('0', '9'), ('A', 'F'), ('a', 'f')])]

/-- A named class such as `[:alpha:]`; anything else is not read as one. -/
def readAsciiClass (scanner : Scanner) : Option (ClassTree × Scanner) := do
  let start ← scanner.expect? "[:"
  let negated := start.peek = some '^'
  let named := if negated then start.drop 1 else start
  let name := named.rest.takeWhile (· ≠ ':')
  let next ← (named.drop name.length).expect? ":]"
  let (_, ranges) ← asciiClasses.find? fun entry => entry.1 = String.ofList name
  return (.ascii ranges negated, next)

def readClassAtom (scanner : Scanner) : Option (Atom × Scanner) := do
  match ← scanner.peek with
  | '\\' => readEscape scanner
  | character => return (.literal ⟨character, false⟩, scanner.drop 1)

def classOfAtom : Atom → Option ClassTree
  | .literal literal => some (.literal literal)
  | .escape name negated => some (.escape name negated)
  | .property name negated => some (.property name negated)
  | .assertion _ | .dot => none

def readClassRange (scanner : Scanner) : Option (ClassTree × Scanner) := do
  let (first, afterFirst) ← readClassAtom scanner
  let next := afterFirst.skipSpace
  let isRange := next.peek = some '-' && next.peekSpace ≠ some ']' && next.peekSpace ≠ some '-'
  if !isRange then
    if next.rest.isEmpty then failure
    return (← classOfAtom first, next)
  else
    let (last, afterLast) ← readClassAtom next.advance
    match first, last with
    | .literal first, .literal last =>
        if first.character ≤ last.character then return (.range first last, afterLast) else none
    | _, _ => none

/-- Hyphens at the start of a class stand for themselves. -/
def readLeadingHyphens : Nat → ClassTree → Scanner → ClassTree × Scanner
  | 0, tree, scanner => (tree, scanner)
  | bound + 1, tree, scanner =>
      if scanner.peek = some '-' then
        readLeadingHyphens bound (.union tree (.literal ⟨'-', false⟩)) scanner.advance
      else (tree, scanner)

def applyPending (pending : Option (ClassOperator × ClassTree)) (right : ClassTree) : ClassTree :=
  match pending with
  | some (operator, left) => .operation operator left right
  | none => right

mutual

def readClass : Nat → Scanner → Option ((ClassTree × Bool) × Scanner)
  | 0, _ => none
  | bound + 1, scanner => do
      let opened := scanner.advance
      let negated := opened.peek = some '^'
      let start := if negated then opened.advance else opened
      let (hyphens, next) := readLeadingHyphens start.rest.length .empty start
      let (members, inside) :=
        if hyphens = .empty && next.peek = some ']' then
          (ClassTree.literal ⟨']', false⟩, next.advance)
        else (hyphens, next)
      let (tree, after) ← readClassItems bound none members inside
      return ((tree, negated), after)

/-- Reads the members of a class up to its closing bracket. Operators bind less tightly than
union, and group to the left. -/
def readClassItems : Nat → Option (ClassOperator × ClassTree) → ClassTree → Scanner → Option (ClassTree × Scanner)
  | 0, _, _, _ => none
  | bound + 1, pending, members, scanner => do
      let start := scanner.skipSpace
      let operation (operator : ClassOperator) : Option (ClassTree × Scanner) :=
        readClassItems bound (some (operator, applyPending pending members)) .empty (start.drop 2)
      match start.rest with
      | [] => none
      | '[' :: _ =>
          match readAsciiClass start with
          | some (named, next) => readClassItems bound pending (.union members named) next
          | none => do
              let ((inner, negated), next) ← readClass bound start
              readClassItems bound pending (.union members (.bracket inner negated)) next
      | ']' :: _ => return (applyPending pending members, start.drop 1)
      | '&' :: '&' :: _ => operation .intersection
      | '-' :: '-' :: _ => operation .difference
      | '~' :: '~' :: _ => operation .symmetricDifference
      | _ => do
          let (item, next) ← readClassRange start
          readClassItems bound pending (.union members item) next

end

-- Groups

def flagOf? : Char → Option RegexFlag
  | 'i' => some .ignoreCase
  | 'm' => some .multiLine
  | 's' => some .dotMatchesAll
  | 'U' => some .swapGreed
  | 'u' => some .unicode
  | 'R' => some .anyLineEnd
  | 'x' => some .ignoreSpace
  | _ => none

/-- Flags up to a colon or a closing parenthesis, no flag twice. A hyphen turns the flags behind
it off; there is one at most, and a flag follows it. -/
def readFlags : Option Bool → List FlagChange → List Char → Option (List FlagChange × List Char)
  | _, _, [] => none
  | dangling, changes, character :: rest =>
      if character = ':' || character = ')' then
        if dangling = some true then none else some (changes.reverse, character :: rest)
      else if character = '-' then
        if dangling.isSome then none else readFlags (some true) changes rest
      else
        match flagOf? character with
        | none => none
        | some flag =>
            if changes.any fun change => change.1 = flag then none
            else readFlags (dangling.map fun _ => false) ((flag, dangling.isNone) :: changes) rest

def isGroupNameChar (first : Bool) (character : Char) : Bool :=
  if first then character = '_' || Text.isAlphabetic character
  else
    character = '_' || character = '.' || character = '[' || character = ']' ||
      Text.isAlphanumeric character

def readGroupName (input : List Char) : Option (String × List Char) :=
  let name := input.takeWhile (· ≠ '>')
  match name, input.drop name.length with
  | first :: others, _ :: rest =>
      if isGroupNameChar true first && others.all (isGroupNameChar false) then
        some (String.ofList name, rest)
      else none
  | _, _ => none

/-- What an opening parenthesis starts: a setting of flags, or a group with flags of its own. -/
inductive Opening where
  | setting (changes : List FlagChange)
  | group (changes : List FlagChange)

def isLookAround (input : List Char) : Bool :=
  [['?', '='], ['?', '!'], ['?', '<', '='], ['?', '<', '!']].any fun start =>
    start.isPrefixOf input

def readOpening (scanner : Scanner) : Option (Opening × Scanner) := do
  let start := scanner.advance
  if isLookAround start.rest then failure
  match (start.expect? "?P<") <|> (start.expect? "?<") with
  | some named =>
      let (name, rest) ← readGroupName named.rest
      if start.names.contains name then failure
      return (.group [], { start with rest := rest, names := name :: start.names })
  | none =>
      match start.expect? "?" with
      | none => return (.group [], start)
      | some flagged =>
          let (changes, rest) ← readFlags none [] flagged.rest
          let next : Scanner := { start with rest := rest.drop 1 }
          if rest.head? = some ')' then
            if changes.isEmpty then none else return (.setting changes, next)
          else return (.group changes, next)

def freeSpacingAfter (changes : List FlagChange) (current : Bool) : Bool :=
  ((changes.find? fun change => change.1 = .ignoreSpace).map (·.2)).getD current

-- Repetition

def readCounts (scanner : Scanner) : Option ((Nat × Option Nat) × Scanner) := do
  let (least, afterLeast) ← readCount scanner.advance
  match ← afterLeast.peek with
  | '\x7d' => return ((least, some least), afterLeast)
  | ',' =>
      let next := afterLeast.advance
      if next.peek = some '\x7d' then return ((least, none), next)
      let (greatest, afterGreatest) ← readCount next
      if afterGreatest.peek = some '\x7d' && least ≤ greatest then
        return ((least, some greatest), afterGreatest)
      else none
  | _ => none

def readRepetition (scanner : Scanner) : Option ((Nat × Option Nat) × Scanner) := do
  let dropLazy (scanner : Scanner) : Scanner :=
    if scanner.peek = some '?' then scanner.drop 1 else scanner
  match ← scanner.peek with
  | '?' => return ((0, some 1), dropLazy (scanner.drop 1))
  | '*' => return ((0, none), dropLazy (scanner.drop 1))
  | '+' => return ((1, none), dropLazy (scanner.drop 1))
  | _ =>
      let (counts, next) ← readCounts scanner
      return (counts, dropLazy next.advance)

def treeOfAtom : Atom → RegexTree
  | .literal literal => .literal literal
  | .assertion assertion => .assertion assertion
  | .escape name negated => .escape name negated
  | .property name negated => .property name negated
  | .dot => .dot

def isRepeatable : RegexTree → Bool
  | .empty | .flags _ => false
  | _ => true

def sequenceOf (reversed : List RegexTree) : RegexTree :=
  match reversed with
  | [] => .empty
  | [part] => part
  | parts => .sequence parts.reverse

def choiceOf (reversed : List RegexTree) : RegexTree :=
  match reversed with
  | [option] => option
  | options => .choice options.reverse

/-- Reads alternatives up to a closing parenthesis or the end. The options and the parts of the
current one come last first; inside tells whether a parenthesis is open. -/
def readChoice : Nat → Bool → List RegexTree → List RegexTree → Scanner → Option (RegexTree × Scanner)
  | 0, _, _, _, _ => none
  | bound + 1, inside, options, parts, scanner =>
      let start := scanner.skipSpace
      let continueWith (part : RegexTree) (next : Scanner) : Option (RegexTree × Scanner) :=
        readChoice bound inside options (part :: parts) next
      match start.rest with
      | [] =>
          if inside then none else some (choiceOf (sequenceOf parts :: options), start)
      | '|' :: _ => readChoice bound inside (sequenceOf parts :: options) [] (start.drop 1)
      | ')' :: _ =>
          if inside then some (choiceOf (sequenceOf parts :: options), start.drop 1) else none
      | '(' :: _ =>
          match readOpening start with
          | none => none
          | some (.setting changes, next) =>
              continueWith (.flags changes)
                { next with freeSpacing := freeSpacingAfter changes start.freeSpacing }
          | some (.group changes, next) =>
              match readChoice bound true [] []
                  { next with freeSpacing := freeSpacingAfter changes start.freeSpacing } with
              | none => none
              | some (inner, after) =>
                  continueWith (.group changes inner)
                    { after with freeSpacing := start.freeSpacing }
      | '[' :: _ =>
          match readClass start.rest.length start with
          | none => none
          | some ((inner, negated), next) => continueWith (.bracket inner negated) next
      | character :: _ =>
          if character = '?' || character = '*' || character = '+' || character = '\x7b' then
            match parts with
            | part :: before =>
                if isRepeatable part then
                  match readRepetition start with
                  | some ((least, greatest), next) =>
                      readChoice bound inside options (.repeated part least greatest :: before) next
                  | none => none
                else none
            | [] => none
          else
            match readAtom start with
            | some (atom, next) => continueWith (treeOfAtom atom) next
            | none => none

def readTree (pattern : String) : Option RegexTree := do
  let input := pattern.toList
  let (tree, _) ← readChoice (2 * input.length + 2) false [] [] ⟨input, false, []⟩
  if tree.depth ≤ RegexTree.maxDepth then return tree else none

end Regex

end SyntaxGraph
