import RustdResolved.Json.Values
import RustdResolved.Lib.Loop

/-! # The JSON parser

The parser of `json.rs`: the text that is left, and the octet at which it starts. The source looks
at the octets of the text; every octet that it tests for is a character of its own, so here it looks
at the characters, and a character beyond ASCII stands for its first octet.

The loops have a bound on their rounds and `parseValue` one on the depth of arrays and objects
within each other; a parse that reaches one ends with the mark `outOfFuel` of the model. -/

namespace RustdResolved.Json.Parsing

open Lib.Loop Wire.Octets Values

structure JsonError where
  offset : Nat
  message : Text
  deriving DecidableEq

/-- How a parse fails: as in the source, or at a bound of the model. -/
inductive Failure
  | json (error : JsonError)
  | outOfFuel
  deriving DecidableEq

structure Parser where
  rest : Text
  offset : Nat
  deriving DecidableEq

namespace Parser

def error {α : Type} (parser : Parser) (message : Text) : Except Failure α :=
  .error (.json ⟨parser.offset, message⟩)

def byte (parser : Parser) : Option Char := parser.rest.head?

/-- Moves over a number of characters of one octet each. -/
def skip (parser : Parser) (count : Nat) : Parser := ⟨parser.rest.drop count, parser.offset + count⟩

def skipChar (parser : Parser) (c : Char) : Parser := ⟨parser.rest.tail, parser.offset + c.utf8Size⟩

end Parser

def isBlank (c : Char) : Bool := c == ' ' || c == '\n' || c == '\r' || c == '\t'

def Parser.skipWhitespace (parser : Parser) : Parser :=
  parser.skip (parser.rest.takeWhile isBlank).length

def literal (parser : Parser) (literal : Text) : Except Failure Parser :=
  if literal.isPrefixOf parser.rest then .ok (parser.skip literal.length)
  else parser.error ("expected ".toList ++ literal)

/-! ### Strings -/

def hexDigit (c : Char) : Option Nat :=
  if '0' ≤ c ∧ c ≤ '9' then some (c.toNat - 48)
  else if 'a' ≤ c ∧ c ≤ 'f' then some (c.toNat - 87)
  else if 'A' ≤ c ∧ c ≤ 'F' then some (c.toNat - 55)
  else none

/-- How many octets a text has. -/
def byteLength (text : Text) : Nat := (text.map Char.utf8Size).sum

/-- Four digits. The sum that the source checks for an overflow is an offset into a text. -/
def parseHexQuad (parser : Parser) : Except Failure (Nat × Parser) :=
  if byteLength parser.rest < 4 then parser.error "short Unicode escape".toList
  else
    match (parser.rest.take 4).mapM hexDigit with
    | some [a, b, c, d] => .ok (((a * 16 + b) * 16 + c) * 16 + d, parser.skip 4)
    | _ => parser.error "invalid hexadecimal digit in Unicode escape".toList

def charFromU32 (scalar : Nat) : Option Char :=
  if scalar < 0xd800 ∨ 0xdfff < scalar ∧ scalar < 0x110000 then some (Char.ofNat scalar) else none

/-- The number of an escape or of a pair of them, behind the first four digits. -/
def surrogatePair (first : Nat) (parser : Parser) : Except Failure (Nat × Parser) :=
  if 0xd800 ≤ first ∧ first ≤ 0xdbff then
    if !(['\\', 'u'].isPrefixOf parser.rest) then
      parser.error "high surrogate is not followed by a low surrogate".toList
    else do
      let (second, parser) ← parseHexQuad (parser.skip 2)
      if 0xdc00 ≤ second ∧ second ≤ 0xdfff then
        .ok (0x10000 + (first - 0xd800) * 1024 + (second - 0xdc00), parser)
      else parser.error "invalid low surrogate".toList
  else if 0xdc00 ≤ first ∧ first ≤ 0xdfff then parser.error "unpaired low surrogate".toList
  else .ok (first, parser)

def parseUnicodeEscape (parser : Parser) : Except Failure (Char × Parser) := do
  let (first, parser) ← parseHexQuad parser
  let (scalar, parser) ← surrogatePair first parser
  match charFromU32 scalar with
  | some c => .ok (c, parser)
  | none => parser.error "invalid Unicode scalar value".toList

def parseEscape (parser : Parser) : Except Failure (Char × Parser) :=
  match parser.byte with
  | none => parser.error "unterminated escape".toList
  | some escape =>
    let parser := parser.skip 1
    if escape = '"' then .ok ('"', parser)
    else if escape = '\\' then .ok ('\\', parser)
    else if escape = '/' then .ok ('/', parser)
    else if escape = 'b' then .ok (Char.ofNat 0x08, parser)
    else if escape = 'f' then .ok (Char.ofNat 0x0c, parser)
    else if escape = 'n' then .ok ('\n', parser)
    else if escape = 'r' then .ok ('\r', parser)
    else if escape = 't' then .ok ('\t', parser)
    else if escape = 'u' then parseUnicodeEscape parser
    else parser.error "invalid escape".toList

/-- A round of `parseString`: a character, an escape or the end. -/
def stringRound (state : Parser × Text) :
    Except Failure (LoopFlow (Text × Parser) (Parser × Text)) :=
  let (parser, output) := state
  match parser.byte with
  | none => parser.error "unterminated string".toList
  | some c =>
    if c = '"' then .ok (.done (output, parser.skip 1))
    else if c = '\\' then do
      let (c, parser) ← parseEscape (parser.skip 1)
      .ok (.again (parser, output ++ [c]))
    else if c.toNat ≤ 31 then parser.error "control character in string".toList
    else .ok (.again (parser.skipChar c, output ++ [c]))

def parseString (parser : Parser) : Except Failure (Text × Parser) :=
  if parser.byte ≠ some '"' then parser.error "expected string".toList
  else loop .outOfFuel stringRound (parser.rest.length + 1) (parser.skip 1, [])

/-! ### Numbers -/

def isDigit (c : Char) : Bool := '0' ≤ c && c ≤ '9'

/-- `str::parse` of digits with a sign in front of them or none. -/
def parseI128 (negative : Bool) (digits : Text) : Option I128 :=
  let magnitude : Nat := digits.foldl (fun value c => value * 10 + (c.toNat - 48)) 0
  let value : Int := if negative then -magnitude else magnitude
  if h : -2 ^ 127 ≤ value ∧ value < 2 ^ 127 then some ⟨value, h⟩ else none

/-- The digits of a number, which has no zero in front of others. -/
def parseDigits (parser : Parser) : Except Failure (Text × Parser) :=
  match parser.byte with
  | some '0' =>
    if (parser.skip 1).byte.any isDigit then (parser.skip 1).error "leading zero in number".toList
    else .ok (['0'], parser.skip 1)
  | some c =>
    if isDigit c then
      let digits := parser.rest.takeWhile isDigit
      .ok (digits, parser.skip digits.length)
    else parser.error "number has no digits".toList
  | none => parser.error "number has no digits".toList

def parseNumber (parser : Parser) : Except Failure (I128 × Parser) := do
  let negative := parser.byte == some '-'
  let (digits, parser) ← parseDigits (if negative then parser.skip 1 else parser)
  if parser.byte = some '.' ∨ parser.byte = some 'e' ∨ parser.byte = some 'E' then
    parser.error "non-integer numbers are not supported by this interface".toList
  else
    match parseI128 negative digits with
    | some value => .ok (value, parser)
    | none => parser.error "integer out of range".toList

/-! ### Arrays and objects

Both are given the parser of their values. -/

section

variable (parseValue : Parser → Except Failure (Value × Parser))

/-- A round of `parseArray`: a value and what is behind it. -/
def arrayRound (state : Parser × List Value) :
    Except Failure (LoopFlow (Value × Parser) (Parser × List Value)) := do
  let (parser, values) := state
  let (value, parser) ← parseValue parser
  let values := values ++ [value]
  let parser := parser.skipWhitespace
  match parser.byte with
  | some ',' => .ok (.again (parser.skip 1, values))
  | some ']' => .ok (.done (.array values, parser.skip 1))
  | _ => parser.error "expected ',' or ']'".toList

def parseArray (parser : Parser) : Except Failure (Value × Parser) :=
  let parser := (parser.skip 1).skipWhitespace
  if parser.byte = some ']' then .ok (.array [], parser.skip 1)
  else loop .outOfFuel (arrayRound parseValue) (parser.rest.length + 1) (parser, [])

/-- A round of `parseObject`: a member and what is behind it. -/
def objectRound (state : Parser × JsonObject Value) :
    Except Failure (LoopFlow (Value × Parser) (Parser × JsonObject Value)) := do
  let (parser, values) := state
  let (key, parser) ← parseString parser.skipWhitespace
  let parser := parser.skipWhitespace
  if parser.byte ≠ some ':' then parser.error "expected ':'".toList
  else
    let (value, parser) ← parseValue (parser.skip 1)
    let (previous, values) := values.insert key value
    if previous.isSome then parser.error "duplicate key".toList
    else
      let parser := parser.skipWhitespace
      match parser.byte with
      | some ',' => .ok (.again (parser.skip 1, values))
      | some '}' => .ok (.done (.object values, parser.skip 1))
      | _ => parser.error "expected ',' or '\x7d'".toList

def parseObject (parser : Parser) : Except Failure (Value × Parser) :=
  let parser := (parser.skip 1).skipWhitespace
  if parser.byte = some '}' then .ok (.object JsonObject.new, parser.skip 1)
  else loop .outOfFuel (objectRound parseValue) (parser.rest.length + 1) (parser, JsonObject.new)

end

/-! ### Values -/

def parseValue : Nat → Parser → Except Failure (Value × Parser)
  | 0, _ => .error .outOfFuel
  | depth + 1, parser => do
    let parser := parser.skipWhitespace
    match parser.byte with
    | some 'n' => return (.null, ← literal parser "null".toList)
    | some 't' => return (.bool true, ← literal parser "true".toList)
    | some 'f' => return (.bool false, ← literal parser "false".toList)
    | some '"' => do
      let (value, parser) ← parseString parser
      return (.string value, parser)
    | some '[' => parseArray (parseValue depth) parser
    | some '{' => parseObject (parseValue depth) parser
    | some c =>
      if c = '-' ∨ isDigit c then do
        let (value, parser) ← parseNumber parser
        return (.number value, parser)
      else parser.error "unexpected token".toList
    | none => parser.error "unexpected end of input".toList

def parse (input : Text) : Except Failure Value := do
  let (value, parser) ← parseValue (input.length + 1) ⟨input, 0⟩
  let parser := parser.skipWhitespace
  if parser.rest.isEmpty then .ok value else parser.error "trailing data".toList

end RustdResolved.Json.Parsing
