import ViewFinder.Value
import ViewFinder.Text.Printable
import ViewFinder.Text.CodePoint

/-!
# The literal text of values

`Value.literal` writes a value so that its kind shows: quoted strings, brackets for lists, braces
for sets and dictionaries. `Value.text` is the same, but that a string stands for itself and a
version is written with dots. Messages and untyped request parameters use `text`.
-/

namespace ViewFinder

namespace Text

/-- The lower-case hexadecimal digits of a number, at least `width` of them. -/
def hexDigits (width n : Nat) : List Char :=
  let digits := Nat.toDigits 16 n
  List.replicate (width - digits.length) '0' ++ digits

/-- A code point inside a quoted literal: the quote and the backslash are escaped, so is what is not
printable. -/
def literalPoint (quote : Char) (n : Nat) : List Char :=
  let c := Char.ofNat n
  if c == quote || c == '\\' then ['\\', c]
  else if c == '\t' then ['\\', 't']
  else if c == '\n' then ['\\', 'n']
  else if c == '\r' then ['\\', 'r']
  else if isPrintable c then [c]
  else if n < 0x100 then '\\' :: 'x' :: hexDigits 2 n
  else if n < 0x10000 then '\\' :: 'u' :: hexDigits 4 n
  else '\\' :: 'U' :: hexDigits 8 n

/-- A quoted literal. The quote is the apostrophe, unless the text has an apostrophe and no double
quote. -/
def quoted (s : List Char) : List Char :=
  let quote := if s.contains '\'' && !s.contains '"' then '"' else '\''
  quote :: ((points s).flatMap (literalPoint quote) ++ [quote])

end Text

/-- Puts a separator between the parts. -/
def joinWith (separator : List Char) : List (List Char) → List Char
  | [] => []
  | [part] => part
  | part :: parts => part ++ separator ++ joinWith separator parts

namespace Value

mutual

/-- The literal text of a value. -/
def literalChars : Value → List Char
  | .null => "None".toList
  | .bool true => "True".toList
  | .bool false => "False".toList
  | .int n => decimalInt n
  | .float x => x.text
  | .str s => Text.quoted s.toList
  | .list items => '[' :: (joinWith [',', ' '] (literalParts items) ++ [']'])
  | .tuple [item] => '(' :: (literalChars item ++ [',', ')'])
  | .tuple items => '(' :: (joinWith [',', ' '] (literalParts items) ++ [')'])
  | .set [] => "set()".toList
  | .set members => '\x7b' :: (joinWith [',', ' '] (literalParts members) ++ ['\x7d'])
  | .frozenset [] => "frozenset()".toList
  | .frozenset members =>
    "frozenset(\x7b".toList ++ joinWith [',', ' '] (literalParts members) ++ ['\x7d', ')']
  | .range low high =>
    "Range(start=".toList ++ literalChars low ++ ", end=".toList ++ literalChars high ++ [')']
  | .version v =>
    "StoreVersion(major=".toList ++ decimalInt v.major ++ ", minor=".toList ++
      decimalInt v.minor ++ ", patch=".toList ++ decimalInt v.patch ++ [')']
  | .dict entries => '\x7b' :: (joinWith [',', ' '] (literalEntries entries) ++ ['\x7d'])

/-- The literal texts of a list of values. -/
def literalParts : List Value → List (List Char)
  | [] => []
  | v :: vs => literalChars v :: literalParts vs

/-- The literal texts of the entries of a dictionary. -/
def literalEntries : List (Value × Value) → List (List Char)
  | [] => []
  | (k, v) :: rest => (literalChars k ++ ':' :: ' ' :: literalChars v) :: literalEntries rest

end

/-- The literal text of a value. -/
def literal (v : Value) : String := String.ofList v.literalChars

/-- The plain text of a value. -/
def text : Value → String
  | .str s => s
  | .version v => String.ofList v.text
  | v => v.literal

end Value

end ViewFinder
