import Mathlib

/-!
# JSON documents and their canonical text

`dumps` is the encoding with sorted keys: object fields in code-point order of their keys, and
every character outside printable ASCII escaped. The separators are part of the layout. The text of
a float is a parameter, since it is the shortest decimal that reads back as the same binary number.
-/

set_option autoImplicit false

namespace AgentPay.Library

/-- A JSON document; a float is carried by its rational value. -/
inductive Json where
  | null
  | bool (b : Bool)
  | int (n : ℤ)
  | float (q : ℚ)
  | str (s : String)
  | arr (items : List Json)
  | obj (fields : List (String × Json))

namespace Json

/-- The value of a key of an object; `none` when the key is missing. -/
def field? (key : String) : List (String × Json) → Option Json
  | [] => none
  | (k, v) :: rest => if k = key then some v else field? key rest

/-- The truth value of a parsed document: null, zero and everything empty are false. -/
def truthy : Json → Bool
  | null => false
  | bool b => b
  | int n => n != 0
  | float q => q != 0
  | str s => s != ""
  | arr items => !items.isEmpty
  | obj fields => !fields.isEmpty

/-- A lower-case hexadecimal number of four digits. -/
def hex4 (n : ℕ) : List Char :=
  [n / 4096 % 16, n / 256 % 16, n / 16 % 16, n % 16].map Nat.digitChar

/-- The escape of one character in a JSON string restricted to ASCII. Characters beyond the basic
plane become a surrogate pair. -/
def escapeChar (c : Char) : List Char :=
  if c = '"' then ['\\', '"']
  else if c = '\\' then ['\\', '\\']
  else if c = '\n' then ['\\', 'n']
  else if c = '\r' then ['\\', 'r']
  else if c = '\t' then ['\\', 't']
  else if c.toNat = 12 then ['\\', 'f']
  else if c.toNat = 8 then ['\\', 'b']
  else if 32 ≤ c.toNat ∧ c.toNat ≤ 126 then [c]
  else if c.toNat < 65536 then '\\' :: 'u' :: hex4 c.toNat
  else
    let v := c.toNat - 65536
    ('\\' :: 'u' :: hex4 (55296 + v / 1024)) ++ ('\\' :: 'u' :: hex4 (56320 + v % 1024))

/-- A quoted string. -/
def quote (s : String) : String :=
  String.ofList ('"' :: s.toList.flatMap escapeChar ++ ['"'])

/-- Insertion of an encoded field by its key. -/
def insertField (f : String × String) : List (String × String) → List (String × String)
  | [] => [f]
  | g :: rest => if f.1 < g.1 then f :: g :: rest else g :: insertField f rest

/-- Encoded fields in the order of their keys. -/
def sortFields : List (String × String) → List (String × String)
  | [] => []
  | f :: rest => insertField f (sortFields rest)

/-- The separators between items and after keys, and the text of a float. -/
structure Layout where
  itemSeparator : String
  keySeparator : String
  floatRepr : ℚ → String

/-- No blanks after separators. -/
def compact (floatRepr : ℚ → String) : Layout := ⟨",", ":", floatRepr⟩

/-- One blank after each separator, the default of the encoder. -/
def spaced (floatRepr : ℚ → String) : Layout := ⟨", ", ": ", floatRepr⟩

mutual
/-- The text of a document. -/
def dumps (l : Layout) : Json → String
  | null => "null"
  | bool b => if b then "true" else "false"
  | int n => toString n
  | float q => l.floatRepr q
  | str s => quote s
  | arr items => "[" ++ l.itemSeparator.intercalate (dumpsItems l items) ++ "]"
  | obj fields =>
    "\x7b" ++ l.itemSeparator.intercalate ((sortFields (dumpsFields l fields)).map
      fun f => quote f.1 ++ l.keySeparator ++ f.2) ++ "\x7d"
/-- The texts of the items of an array. -/
def dumpsItems (l : Layout) : List Json → List String
  | [] => []
  | x :: xs => dumps l x :: dumpsItems l xs
/-- The keys of an object with the texts of their values. -/
def dumpsFields (l : Layout) : List (String × Json) → List (String × String)
  | [] => []
  | (k, x) :: xs => (k, dumps l x) :: dumpsFields l xs
end

example : dumps (compact fun _ => "") (.obj [("quantity", .int 2), ("items", .arr [.null, .str "a\"b"])])
    = "\x7b\"items\":[null,\"a\\\"b\"],\"quantity\":2\x7d" := by decide +kernel

end Json

end AgentPay.Library
