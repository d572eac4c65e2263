import Stencil.Template.Tree
import Stencil.Template.Cursor
/-! Reads template source. A reader of nested source takes a bound on the number of steps left; every
step that goes deeper or on takes a character or is one of at most eight between two of them, so the
bound that `run` starts with is never met. -/

namespace Stencil.Reader

/-- Whether one of the tags that end the body of a branch is next. -/
def atBranchTag (c : Cursor) : Bool :=
  c.startsWith "<elseif(" || c.startsWith "<else>" || c.startsWith "<endif>"

/-- Literal text up to the next tag or, in an anonymous template, its closing brace. A backslash
quotes an angle bracket or a brace, and stands for itself elsewhere. -/
def literalText (nested : Bool) : List Char → Nat → List Char × Cursor
  | [], offset => ([], ⟨[], offset⟩)
  | c :: rest, offset =>
    if c = '<' || (nested && c = '\x7d') then ([], ⟨c :: rest, offset⟩)
    else if c = '\\' then
      match rest with
      | [] => (['\\'], ⟨[], offset + 1⟩)
      | d :: more =>
        if d = '<' || d = '>' || d = '\x7b' || d = '\x7d' then
          let (text, after) := literalText nested more (offset + 2)
          (d :: text, after)
        else
          let (text, after) := literalText nested (d :: more) (offset + 1)
          ('\\' :: text, after)
    else
      let (text, after) := literalText nested rest (offset + c.utf8Size)
      (c :: text, after)

def text (nested : Bool) : Reader String := fun c =>
  let (text, after) := literalText nested c.rest c.offset
  .ok (String.ofList text, after)

/-- The rest of quoted text and its closing quote. -/
def quotedRest : List Char → Nat → Except Failure (List Char × Cursor)
  | [], offset => .error ⟨.unterminatedText, offset⟩
  | '"' :: rest, offset => .ok ([], ⟨rest, offset + 1⟩)
  | '\\' :: [], offset => .error ⟨.unterminatedText, offset + 1⟩
  | '\\' :: c :: rest, offset => do
    let (text, after) ← quotedRest rest (offset + 1 + c.utf8Size)
    return (match c with
      | 'n' => '\n' :: text
      | 't' => '\t' :: text
      | 'r' => '\r' :: text
      | '"' => '"' :: text
      | '\\' => '\\' :: text
      | c => '\\' :: c :: text, after)
  | c :: rest, offset => do
    let (text, after) ← quotedRest rest (offset + c.utf8Size)
    return (c :: text, after)

/-- Quoted text, the opening quote of which is next. -/
def quoted : Reader String := do
  expect "\""
  String.ofList <$> fun c => quotedRest c.rest c.offset

def comment : Reader Unit := do
  expect "<!"
  through "!>" .unterminatedComment

/-- The value of a hexadecimal digit. -/
def hexDigit (c : Char) : Nat :=
  if c.isDigit then c.toNat - 48 else if 'a'.toNat ≤ c.toNat then c.toNat - 87 else c.toNat - 55

def isHexDigit (c : Char) : Bool :=
  c.isDigit || ('a' ≤ c && c ≤ 'f') || ('A' ≤ c && c ≤ 'F')

/-- The character of a code point, which no surrogate has. -/
def character? (n : Nat) : Option Char := if n.isValidChar then some (Char.ofNat n) else none

/-- Four hexadecimal digits and the character that they stand for. -/
def unicodeEscape : Reader Char := do
  let some digits ← (fun c =>
      let digits := c.rest.take 4
      if digits.length = 4 && digits.all isHexDigit then
        .ok (some digits, c.after digits (c.rest.drop 4))
      else .ok (none, c) : Reader (Option (List Char)))
    | fail .shortUnicodeEscape
  match character? (digits.foldl (fun n d => 16 * n + hexDigit d) 0) with
  | some c => return c
  | none => fail .noSuchCharacter

/-- The escapes of a special character tag up to its end, and whether one of them swallows the line
break behind the tag. -/
def escapes : Nat → Reader (List Char × Bool)
  | 0 => fail .cutOff
  | n + 1 => do
    if ← startsWith ">" then return ([], false)
    expect "\\"
    let some c ← next? | fail .cutOff
    let (first, swallows) ← (match c with
      | 'n' => return (['\n'], false)
      | 't' => return (['\t'], false)
      | 'r' => return (['\r'], false)
      | ' ' => return ([' '], false)
      | '\\' => return ([], true)
      | 'u' => return ([← unicodeEscape], false)
      | _ => fail .unknownEscape : Reader (List Char × Bool))
    let (more, swallow) ← escapes n
    return (first ++ more, swallows || swallow)

/-- A tag of escapes such as `<\n>`. -/
def special : Reader String := do
  expect "<"
  let c ← get
  let (text, swallow) ← escapes (c.rest.length + 1)
  expect ">"
  if swallow then
    let _ ← accept "\r"
    let _ ← accept "\n"
  return String.ofList text

/-- Whether a named argument is next: a name and an equals sign that is not doubled. -/
def startsNamed (c : Cursor) : Bool :=
  match c.rest with
  | [] => false
  | x :: _ =>
    startsName x &&
      match (c.rest.dropWhile continuesName).dropWhile Text.isBlank with
      | '=' :: '=' :: _ => false
      | '=' :: _ => true
      | _ => false

/-- The parameter of an anonymous template with the bar and the space behind it. -/
def parameter : Reader (Option String) := do
  let found ← optional do
    blanks
    let p ← name .cutOff
    blanks
    expect "|"
    return p
  if found.isSome then
    let _ ← accept " "
  return found

/-- Takes a comma and the blanks around it. -/
def comma : Reader Bool := do
  blanks
  if ← accept "," then
    blanks
    return true
  return false

/-- Takes an operator between blanks, or nothing at all. -/
def operator (token : String) : Reader Bool := do
  return (← optional do
    blanks
    expect token
    blanks).isSome

/-- Takes the dot behind the name `super`. -/
def superDot (name : String) : Reader Bool := do
  if name == "super" then accept "." else return false

mutual

/-- The elements up to the end of the source, a branch tag or a closing brace. -/
def elements : Nat → Bool → Reader (List Element)
  | 0, _ => fail .cutOff
  | n + 1, nested => do
    let c ← get
    if c.rest.isEmpty || (nested && c.startsWith "\x7d") || atBranchTag c then return []
    if c.startsWith "<!" then
      comment
      elements n nested
    else if c.startsWith "<\\" then
      let s ← special
      return .text s :: (← elements n nested)
    else if c.startsWith "<if(" then
      let e ← choice n nested
      return e :: (← elements n nested)
    else if c.startsWith "<" then
      let e ← tag n
      return e :: (← elements n nested)
    else
      let s ← text nested
      return .text s :: (← elements n nested)

/-- A body, in which no two texts are neighbours. -/
def body : Nat → Bool → Reader (List Element)
  | 0, _ => fail .cutOff
  | n + 1, nested => Element.joinTexts <$> elements n nested

/-- A conditional from its first tag to its last. -/
def choice : Nat → Bool → Reader Element
  | 0, _ => fail .cutOff
  | n + 1, nested => do
    let first ← branch n nested "<if("
    let more ← branches n nested
    let otherwise ← (do
      if ← accept "<else>" then return some (← body n nested)
      return none : Reader (Option (List Element)))
    expect "<endif>"
    return .choice (first :: more) otherwise

/-- The branches behind the first. -/
def branches : Nat → Bool → Reader (List Branch)
  | 0, _ => fail .cutOff
  | n + 1, nested => do
    if ← startsWith "<elseif(" then
      let first ← branch n nested "<elseif("
      return first :: (← branches n nested)
    return []

def branch : Nat → Bool → String → Reader Branch
  | 0, _, _ => fail .cutOff
  | n + 1, nested, opening => do
    let start ← offset
    expect opening
    blanks
    let condition ← condition n
    blanks
    expect ")>"
    let span := Span.between start (← offset)
    return ⟨condition, ← body n nested, span⟩

/-- A tag that writes an expression. -/
def tag : Nat → Reader Element
  | 0 => fail .cutOff
  | n + 1 => do
    let start ← offset
    expect "<"
    blanks
    let value ← expression n true
    blanks
    let options ← (do
      if ← accept ";" then options n else return [] : Reader (List TagOption))
    expect ">"
    return .tag value options (.between start (← offset))

/-- One option or more, between commas. -/
def options : Nat → Reader (List TagOption)
  | 0 => fail .cutOff
  | n + 1 => do
    blanks
    let start ← offset
    let name ← name .expectedOptionName
    let span := Span.between start (← offset)
    blanks
    expect "="
    blanks
    let value ← expression n false
    blanks
    let more ← (do
      if ← accept "," then options n else return [] : Reader (List TagOption))
    return ⟨name, value, span⟩ :: more

/-- Tests joined by `||`. -/
def condition : Nat → Reader Condition
  | 0 => fail .cutOff
  | n + 1 => do
    let left ← conjunction n
    disjuncts n left

/-- The rest of a chain of `||`, the left of which is read. -/
def disjuncts : Nat → Condition → Reader Condition
  | 0, _ => fail .cutOff
  | n + 1, left => do
    if ← operator "||" then
      let right ← conjunction n
      disjuncts n (.or left right)
    else return left

/-- Tests joined by `&&`. -/
def conjunction : Nat → Reader Condition
  | 0 => fail .cutOff
  | n + 1 => do
    let left ← negation n
    conjuncts n left

/-- The rest of a chain of `&&`, the left of which is read. -/
def conjuncts : Nat → Condition → Reader Condition
  | 0, _ => fail .cutOff
  | n + 1, left => do
    if ← operator "&&" then
      let right ← negation n
      conjuncts n (.and left right)
    else return left

/-- A test behind any number of `!`. Parentheses hold a condition unless what follows them shows
that they belong to an expression such as `(name)(arguments)` or `(a).b`. -/
def negation : Nat → Reader Condition
  | 0 => fail .cutOff
  | n + 1 => do
    if ← accept "!" then
      blanks
      return .not (← negation n)
    if ← startsWith "(" then
      let found ← optional do
        expect "("
        blanks
        let inner ← condition n
        blanks
        expect ")"
        let c ← get
        if c.startsWith "(" || c.startsWith "." || c.startsWith ":" then fail .expectedExpression
        return inner
      if let some inner := found then return inner
    return .value (← expression n true)

/-- An expression: a member, then templates to map over it. Between commas, a chain maps one
template at a time. -/
def expression : Nat → Bool → Reader Expr
  | 0, _ => fail .cutOff
  | n + 1, roundRobin => do
    let start ← offset
    let target ← member n
    maps n roundRobin start target

/-- The rest of a chain of maps over what is read. -/
def maps : Nat → Bool → Nat → Expr → Reader Expr
  | 0, _, _, _ => fail .cutOff
  | n + 1, roundRobin, start, target => do
    if ← operator ":" then
      let first ← mapTarget n
      let more ← (do
        if roundRobin then mapTargets n else return [] : Reader (List Expr))
      maps n roundRobin start (.map target (first :: more) (.between start (← offset)))
    else return target

/-- Further templates that a map takes turns with. -/
def mapTargets : Nat → Reader (List Expr)
  | 0 => fail .cutOff
  | n + 1 => do
    if ← operator "," then
      let first ← mapTarget n
      return first :: (← mapTargets n)
    return []

/-- A template to map: a call, a call by a computed name, or an anonymous template. -/
def mapTarget : Nat → Reader Expr
  | 0 => fail .cutOff
  | n + 1 => do
    let start ← offset
    match ← peek? with
    | some '\x7b' => anonymous n start
    | some '(' =>
      let name ← parenthesized n
      let arguments ← arguments n
      return .callComputed name arguments (.between start (← offset))
    | some c =>
      if startsName c then
        let name ← name .expectedMapTemplate
        if ← superDot name then inheritedCall n start
        else
          let arguments ← arguments n
          return .call ⟨name, false⟩ arguments (.between start (← offset))
      else fail .expectedMapTemplate
    | none => fail .expectedMapTemplate

/-- What follows `super.` in a call. -/
def inheritedCall : Nat → Nat → Reader Expr
  | 0, _ => fail .cutOff
  | n + 1, start => do
    let name ← name .expectedTemplateName
    let arguments ← arguments n
    return .call ⟨name, true⟩ arguments (.between start (← offset))

/-- A primary expression with the properties read from it. -/
def member : Nat → Reader Expr
  | 0 => fail .cutOff
  | n + 1 => do
    let start ← offset
    let target ← primary n
    properties n start target

/-- The rest of a chain of properties of what is read. -/
def properties : Nat → Nat → Expr → Reader Expr
  | 0, _, _ => fail .cutOff
  | n + 1, start, target => do
    unless ← accept "." do return target
    if ← startsWith "(" then
      let key ← parenthesized n
      properties n start (.propertyAt target key (.between start (← offset)))
    else
      let name ← propertyName
      properties n start (.property target name (.between start (← offset)))

def primary : Nat → Reader Expr
  | 0 => fail .cutOff
  | n + 1 => do
    let start ← offset
    match ← peek? with
    | some '"' =>
      let text ← quoted
      return .literal text (.between start (← offset))
    | some '[' =>
      expect "["
      blanks
      let items ← (do
        if ← accept "]" then return []
        let items ← listItems n
        blanks
        expect "]"
        return items : Reader (List Expr))
      return .list items (.between start (← offset))
    | some '\x7b' => anonymous n start
    | some '(' =>
      let inner ← parenthesized n
      if ← startsWith "(" then
        let arguments ← arguments n
        return .callComputed inner arguments (.between start (← offset))
      else return .rendered inner (.between start (← offset))
    | some c =>
      if startsName c then named n start else fail .expectedExpression
    | none => fail .expectedExpression

/-- An expression that starts with a name. -/
def named : Nat → Nat → Reader Expr
  | 0, _ => fail .cutOff
  | n + 1, start => do
    let name ← name .expectedExpression
    if ← superDot name then inheritedCall n start
    else if ← startsWith "(" then
      match Builtin.ofName? name with
      | some function =>
        let argument ← parenthesized n
        return .builtin function argument (.between start (← offset))
      | none =>
        let arguments ← arguments n
        return .call ⟨name, false⟩ arguments (.between start (← offset))
    else
      let span := Span.between start (← offset)
      return if name == "true" then .truth true span
        else if name == "false" then .truth false span
        else .attribute name span

/-- An expression in parentheses. -/
def parenthesized : Nat → Reader Expr
  | 0 => fail .cutOff
  | n + 1 => do
    expect "("
    blanks
    let inner ← expression n true
    blanks
    expect ")"
    return inner

/-- What a call passes, in parentheses. -/
def arguments : Nat → Reader Arguments
  | 0 => fail .cutOff
  | n + 1 => do
    expect "("
    blanks
    if ← accept ")" then return .positional []
    let passed ← (do
      if startsNamed (← get) then return .named (← namedArguments n)
      return .positional (← positionalArguments n) : Reader Arguments)
    blanks
    expect ")"
    return passed

def namedArguments : Nat → Reader (List NamedArgument)
  | 0 => fail .cutOff
  | n + 1 => do
    unless startsNamed (← get) do fail .mixedArguments
    let start ← offset
    let name ← name .mixedArguments
    let span := Span.between start (← offset)
    blanks
    expect "="
    blanks
    let value ← expression n false
    let more ← (do
      if ← comma then namedArguments n else return [] : Reader (List NamedArgument))
    return ⟨name, value, span⟩ :: more

def positionalArguments : Nat → Reader (List Expr)
  | 0 => fail .cutOff
  | n + 1 => do
    if startsNamed (← get) then fail .mixedArguments
    let value ← expression n false
    let more ← (do
      if ← comma then positionalArguments n else return [] : Reader (List Expr))
    return value :: more

def listItems : Nat → Reader (List Expr)
  | 0 => fail .cutOff
  | n + 1 => do
    let value ← expression n false
    let more ← (do
      if ← comma then listItems n else return [] : Reader (List Expr))
    return value :: more

/-- A template without a name, the opening brace of which is next. -/
def anonymous : Nat → Nat → Reader Expr
  | 0, _ => fail .cutOff
  | n + 1, start => do
    expect "\x7b"
    let parameter ← parameter
    let body ← body n true
    expect "\x7d"
    return .anonymous parameter body (.between start (← offset))

end

/-- A whole template body. -/
def template (n : Nat) : Reader (List Element) := do
  let body ← body n false
  if atBranchTag (← get) then fail .strayBranchTag
  return body

/-- An expression that stands alone, between blanks. -/
def loneExpression (n : Nat) : Reader Expr := do
  blanks
  let e ← expression n true
  blanks
  return e

/-- Runs a reader over a whole source, of which nothing may be left. -/
def run {α : Type} (reader : Nat → Reader α) (source : String) : Except SyntaxError α :=
  let cs := source.toList
  let report (f : Failure) : SyntaxError := ⟨f.fault, .reached source f.offset⟩
  match reader (16 * (cs.length + 1)) ⟨cs, 0⟩ with
  | .error f => .error (report f)
  | .ok (a, c) =>
    match c.rest with
    | [] => .ok a
    | x :: _ => .error (report ⟨.unexpected x, c.offset⟩)

end Stencil.Reader

namespace Stencil

/-- Reads the body of a template. -/
def Element.readAll (source : String) : Except SyntaxError (List Element) :=
  Reader.run Reader.template source

/-- Reads an expression such as the default of a parameter. -/
def Expr.read (source : String) : Except SyntaxError Expr := Reader.run Reader.loneExpression source

end Stencil
