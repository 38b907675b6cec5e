import ShapeMatch.Json.Number

/-!
# JSON tokens

The text of a JSON document is cut into tokens in one pass from left to right. A run of letters,
digits, points and signs is one word, which must be a literal name or a number. Escapes in
strings are read as UTF-16 units, and a surrogate that is not half of a pair is refused.

## Main definitions

* `Json.Token`: punctuation, literal names, numbers and strings.
* `Json.tokens?`: the tokens of a text.
-/

namespace ShapeMatch.Json

/-- A token of JSON text. -/
inductive Token where
  | openArray
  | closeArray
  | openObject
  | closeObject
  | comma
  | colon
  | null
  | bool (b : Bool)
  | num (n : Number)
  | str (s : String)
deriving Repr

/-- The token of a word. -/
def word? (word : List Char) : Option Token :=
  if word = "null".toList then some .null
  else if word = "true".toList then some (.bool true)
  else if word = "false".toList then some (.bool false)
  else (number? word).map .num

/-- The characters that make up words. -/
def isWordChar (c : Char) : Bool := c.isAlphanum || c == '+' || c == '-' || c == '.'

def isHighSurrogate (u : Nat) : Bool := 0xD800 ≤ u && u < 0xDC00

def isLowSurrogate (u : Nat) : Bool := 0xDC00 ≤ u && u < 0xE000

/-- Joins surrogate pairs, refusing a surrogate that stands alone. -/
def joinSurrogates? : List Nat → Option (List Char)
  | [] => some []
  | high :: low :: rest =>
    if isHighSurrogate high then
      if isLowSurrogate low then
        (joinSurrogates? rest).map
          (Char.ofNat (0x10000 + (high - 0xD800) * 0x400 + (low - 0xDC00)) :: ·)
      else none
    else if isLowSurrogate high then none
    else (joinSurrogates? (low :: rest)).map (Char.ofNat high :: ·)
  | [u] => if isHighSurrogate u || isLowSurrogate u then none else some [Char.ofNat u]

/-- The character that a one-letter escape stands for. -/
def simpleEscape? : Char → Option Char
  | '"' => some '"'
  | '\\' => some '\\'
  | '/' => some '/'
  | 'b' => some '\x08'
  | 'f' => some '\x0c'
  | 'n' => some '\n'
  | 'r' => some '\r'
  | 't' => some '\t'
  | _ => none

/-- Where a cut stands between two characters. Words and strings hold what was read of them so
far, last character first. -/
inductive Mode where
  | between
  | word (chars : List Char)
  | string (units : List Nat)
  | escape (units : List Nat)
  | hex (units : List Nat) (left : Nat) (value : Nat)

/-- A cut in progress: where it stands, and the tokens so far, last first. -/
structure Cutting where
  mode : Mode
  tokens : List Token

namespace Cutting

/-- Reads a character that belongs to no word or string in progress. -/
def start? (tokens : List Token) (c : Char) : Option Cutting :=
  let punctuation (t : Token) : Option Cutting := some ⟨.between, t :: tokens⟩
  match c with
  | ' ' | '\t' | '\n' | '\r' => some ⟨.between, tokens⟩
  | '[' => punctuation .openArray
  | ']' => punctuation .closeArray
  | '\x7b' => punctuation .openObject
  | '\x7d' => punctuation .closeObject
  | ',' => punctuation .comma
  | ':' => punctuation .colon
  | '"' => some ⟨.string [], tokens⟩
  | c => if isWordChar c then some ⟨.word [c], tokens⟩ else none

/-- Reads one character. -/
def step? (s : Cutting) (c : Char) : Option Cutting :=
  match s.mode with
  | .between => start? s.tokens c
  | .word chars =>
    if isWordChar c then some { s with mode := .word (c :: chars) }
    else (word? chars.reverse).bind fun t => start? (t :: s.tokens) c
  | .string units =>
    if c = '"' then
      (joinSurrogates? units.reverse).map fun cs => ⟨.between, .str (String.ofList cs) :: s.tokens⟩
    else if c = '\\' then some { s with mode := .escape units }
    else if c.toNat < 0x20 then none
    else some { s with mode := .string (c.toNat :: units) }
  | .escape units =>
    if c = 'u' then some { s with mode := .hex units 4 0 }
    else (simpleEscape? c).map fun e => { s with mode := .string (e.toNat :: units) }
  | .hex units left value =>
    (hexDigit? c).map fun d =>
      let value := 16 * value + d
      if left ≤ 1 then { s with mode := .string (value :: units) }
      else { s with mode := .hex units (left - 1) value }

/-- The tokens at the end of the text, unless a string is still open. -/
def finish? (s : Cutting) : Option (List Token) :=
  match s.mode with
  | .between => some s.tokens.reverse
  | .word chars => (word? chars.reverse).map fun t => (t :: s.tokens).reverse
  | _ => none

end Cutting

/-- The tokens of a text. -/
def tokens? (text : List Char) : Option (List Token) :=
  (text.foldlM Cutting.step? ⟨.between, []⟩).bind Cutting.finish?

end ShapeMatch.Json
