import CXS.Http.Framing
import CXS.Http.Headers
import CXS.Http.KeepAlive
import CXS.Util.Scan

namespace CXS
namespace Http

/--
A text of bytes in `cls` and of escapes, which are a `%` and two hexadecimal digits.
-/
inductive Encoded (cls : List (Nat × Nat)) : List UInt8 → Prop where
  | nil : Encoded cls []
  | char {c : UInt8} {text : List UInt8} (hc : inRange c cls = true) (h : Encoded cls text)
    : Encoded cls (c :: text)
  | escape {c d : UInt8} {text : List UInt8} (hc : inRange c Table.xdigit = true)
    (hd : inRange d Table.xdigit = true) (h : Encoded cls text) : Encoded cls (37 :: c :: d :: text)

def FieldName (key : List UInt8) : Prop :=
  ∃ c text, key = c :: text ∧ inRange c Table.fieldStart = true
    ∧ ∀ b ∈ text, inRange b Table.token = true

def FieldValue (value : List UInt8) : Prop :=
  ∀ c text, value = c :: text
    → inRange c Table.valueStart = true ∧ ∀ b ∈ text, inRange b Table.value = true

def PathText (r : Bool) (path : List UInt8) : Prop :=
  ∃ text, path = 47 :: text ∧ Encoded (Table.path r) text ∧ text.head? ≠ some 47

/--
The states for an encoded text. The first byte leads away from `start` with `actions`, and the states
`hex` and `hex'` are those in an escape.
-/
structure Region (r : Bool) (first cls : List (Nat × Nat)) (start : Nat) (actions : List Action)
    (inside hex hex' : Nat) : Prop where
  first : ∀ b, inRange b first = true → trans r start b = (actions, inside)
  escape_first : trans r start 37 = (actions, hex)
  char : ∀ b, inRange b cls = true → trans r inside b = ([], inside)
  escape : trans r inside 37 = ([], hex)
  hex : ∀ b, inRange b Table.xdigit = true → trans r hex b = ([], hex')
  hex' : ∀ b, inRange b Table.xdigit = true → trans r hex' b = ([], inside)

section Table

theorem trans_of_class {r : Bool} {cls : List (Nat × Nat)} {cs cs' : Nat} {actions : List Action}
    (h : ∀ n : Fin 256, inRange (UInt8.ofNat n) cls = true
      → trans r cs (UInt8.ofNat n) = (actions, cs'))
    : ∀ b, inRange b cls = true → trans r cs b = (actions, cs') :=
  forall_byte h

theorem region_of_bytes {r : Bool} {first cls : List (Nat × Nat)} {start inside hex hex' : Nat}
    {actions : List Action}
    (hescape : trans r start 37 = (actions, hex) ∧ trans r inside 37 = ([], hex))
    (hbyte : ∀ n : Fin 256,
      (inRange (UInt8.ofNat n) first = true → trans r start (UInt8.ofNat n) = (actions, inside))
        ∧ (inRange (UInt8.ofNat n) cls = true → trans r inside (UInt8.ofNat n) = ([], inside))
        ∧ (inRange (UInt8.ofNat n) Table.xdigit = true
          → trans r hex (UInt8.ofNat n) = ([], hex') ∧ trans r hex' (UInt8.ofNat n) = ([], inside)))
    : Region r first cls start actions inside hex hex' where
  first := trans_of_class fun n => (hbyte n).1
  escape_first := hescape.1
  char := trans_of_class fun n => (hbyte n).2.1
  escape := hescape.2
  hex := trans_of_class fun n hn => ((hbyte n).2.2 hn).1
  hex' := trans_of_class fun n hn => ((hbyte n).2.2 hn).2

theorem region_path (r : Bool) : Region r (Table.pchar r) (Table.path r) 33 [] 26 27 28 := by
  apply region_of_bytes
  . revert r
    decide
  . revert r
    decide +kernel

theorem region_query (r : Bool)
    : Region r (Table.query r) (Table.query r) 29 [.start_query] 30 31 32 := by
  apply region_of_bytes
  . revert r
    decide
  . revert r
    decide +kernel

theorem region_fragment (r : Bool)
    : Region r (Table.query r) (Table.query r) 20 [.mark] 21 22 23 := by
  apply region_of_bytes
  . revert r
    decide
  . revert r
    decide +kernel

theorem pchar_of_path (r : Bool) : ∀ b, inRange b (Table.path r) = true → b ≠ 47
    → inRange b (Table.pchar r) = true := by
  apply forall_byte
  revert r
  decide +kernel

theorem trans_path_start : ∀ r, trans r 3 47 = ([.mark], 33) := by
  decide

theorem trans_path_end : ∀ r, ∀ cs ∈ [33, 26],
    trans r cs 32 = ([.request_path, .request_uri], 4)
      ∧ trans r cs 35 = ([.request_path, .request_uri], 20)
      ∧ trans r cs 63 = ([.request_path], 29) := by
  decide

theorem trans_query_end : ∀ r,
    trans r 30 32 = ([.query_string, .request_uri], 4)
      ∧ trans r 30 35 = ([.query_string, .request_uri], 20) := by
  decide

theorem trans_fragment_end : ∀ r, trans r 21 32 = ([.fragment], 4) := by
  decide

theorem trans_field_start (r : Bool)
    : ∀ b, inRange b Table.fieldStart = true → trans r 13 b = ([.start_field], 14) := by
  apply trans_of_class
  revert r
  decide +kernel

theorem trans_field (r : Bool) : ∀ b, inRange b Table.token = true → trans r 14 b = ([], 14) := by
  apply trans_of_class
  revert r
  decide +kernel

theorem trans_value_start (r : Bool)
    : ∀ b, inRange b Table.valueStart = true → trans r 15 b = ([.mark], 16) := by
  apply trans_of_class
  revert r
  decide +kernel

theorem trans_value (r : Bool) : ∀ b, inRange b Table.value = true → trans r 16 b = ([], 16) := by
  apply trans_of_class
  revert r
  decide +kernel

theorem trans_field_ends : ∀ r,
    trans r 14 58 = ([.write_field], 15) ∧ trans r 15 32 = ([.mark], 15)
      ∧ trans r 15 13 = ([.mark, .write_value], 17) ∧ trans r 16 13 = ([.write_value], 17)
      ∧ trans r 17 10 = ([], 13) := by
  decide

theorem trans_version : ∀ r, trans r 4 72 = ([.mark], 5) ∧ trans r 12 13 = ([.http_version], 17) := by
  decide

theorem trans_empty_line : ∀ r,
    trans r 13 13 = ([.start_field], 18) ∧ trans r 18 10 = ([.done], http_parser_first_final) := by
  decide

end Table

end Http
end CXS
