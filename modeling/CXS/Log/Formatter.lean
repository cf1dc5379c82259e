import Mathlib.Data.List.Basic

namespace CXS

inductive FormatItem where
  | StringFormatItem (str : String)
  | MessageFormatItem (fmt : String)
  | NameFormatItem (fmt : String)
  | LevelFormatItem (fmt : String)
  | ElapseFormatItem (fmt : String)
  | ThreadIdFormatItem (fmt : String)
  | NewLineFormatItem (fmt : String)
  | DateTimeFormatItem (fmt : String)
  | FilenameFormatItem (fmt : String)
  | LineFormatItem (fmt : String)
  | TabFormatItem (fmt : String)
  | FiberIdFormatItem (fmt : String)
  | ThreadNameFormatItem (fmt : String)
  deriving DecidableEq, Repr

structure LogFormatter where
  m_pattern : String
  m_item : List FormatItem
  m_error : Bool
  deriving DecidableEq, Repr

namespace LogFormatter

def s_format_items : String → Option (String → FormatItem)
  | "m" => some .MessageFormatItem
  | "c" => some .NameFormatItem
  | "p" => some .LevelFormatItem
  | "r" => some .ElapseFormatItem
  | "t" => some .ThreadIdFormatItem
  | "n" => some .NewLineFormatItem
  | "d" => some .DateTimeFormatItem
  | "f" => some .FilenameFormatItem
  | "l" => some .LineFormatItem
  | "T" => some .TabFormatItem
  | "F" => some .FiberIdFormatItem
  | "N" => some .ThreadNameFormatItem
  | _ => none

structure Directive where
  str : List Char
  fmt : List Char
  fmt_status : Bool
  n : Nat
  deriving DecidableEq, Repr

def readFmt (str : List Char) (n : Nat) (fmt : List Char) : List Char → Directive
  | [] => { str, fmt := [], fmt_status := true, n }
  | c :: cs =>
    if c == '\x7d' then
      { str, fmt, fmt_status := false, n := n + 1 }
    else
      readFmt str (n + 1) (fmt ++ [c]) cs

def readDirective (str : List Char) : List Char → Directive
  | [] => { str, fmt := [], fmt_status := false, n := str.length }
  | c :: cs =>
    if c == '\x7b' then
      readFmt str (str.length + 1) [] cs
    else if c.isAlpha || c == '\x7d' then
      readDirective (str ++ [c]) cs
    else
      { str, fmt := [], fmt_status := false, n := str.length }

structure Entry where
  str : String
  fmt : String
  type : Nat
  deriving DecidableEq, Repr

def literal (nstr : List Char) : List Entry :=
  if nstr.isEmpty then [] else [⟨String.ofList nstr, "", 0⟩]

-- `skip` characters were read by the inner loop already
def scan (skip : Nat) (nstr : List Char) : List Char → List Entry × Bool
  | [] => (literal nstr, false)
  | c :: cs =>
    match skip with
    | skip + 1 => scan skip nstr cs
    | 0 =>
      if c != '%' then
        scan 0 (nstr ++ [c]) cs
      else if cs.head? == some '%' then
        scan 0 (nstr ++ ['%']) cs
      else
        let d := readDirective [] cs
        if d.fmt_status then
          let (rest, _) := scan 0 nstr cs
          (⟨"<<pattern error>>", String.ofList d.fmt, 0⟩ :: rest, true)
        else
          let (rest, error) := scan d.n [] cs
          (literal nstr ++ ⟨String.ofList d.str, String.ofList d.fmt, 1⟩ :: rest, error)

def item (e : Entry) : FormatItem × Bool :=
  if e.type == 0 then
    (.StringFormatItem e.str, false)
  else
    match s_format_items e.str with
    | none => (.StringFormatItem ("<<ERROR FORMAT %" ++ e.str ++ ">>"), true)
    | some make => (make e.fmt, false)

def new (pattern : String) : LogFormatter :=
  let (fmtVec, error) := scan 0 [] pattern.toList
  {
    m_pattern := pattern
    m_item := fmtVec.map fun e => (item e).1
    m_error := error || fmtVec.any fun e => (item e).2
  }

def isError (f : LogFormatter) : Bool :=
  f.m_error

end LogFormatter
end CXS
