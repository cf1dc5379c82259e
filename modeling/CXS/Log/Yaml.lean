import CXS.Config.Node
import CXS.Log.Config

namespace CXS

def LogLevel.enumerators : List LogLevel :=
  [.UNKNOW, .DEBUG, .INFO, .WARN, .ERROR, .FATAL]

namespace LexicalCast

open Yaml

def getString (node : Yaml) (key : String) : Except Exception String := do
  match ← node.get key with
  | some value => value.asString
  | none => .ok ""

-- the body of the loop over `appenders`, where `none` is `continue`
def toAppenderDefine (ap : Yaml) : Except Exception (Option LogAppenderDefine) := do
  match ← ap.get "type" with
  | none => .ok none
  | some type =>
    let type ← type.asString
    if type = "FileLogAppender" then
      match ← ap.get "file" with
      | none => .ok none
      | some file =>
        let file ← file.asString
        let formatter ← getString ap "formatter"
        .ok (some { type := 1, level := .UNKNOW, file, formatter })
    else if type = "StdoutLogAppender" then
      let formatter ← getString ap "formatter"
      .ok (some { type := 2, level := .UNKNOW, file := "", formatter })
    else
      .ok none

def pushAppender (appenders : Yaml) (lads : List LogAppenderDefine) (x : Nat)
    : Except Exception (List LogAppenderDefine) := do
  match ← toAppenderDefine (appenders.index x) with
  | none => .ok lads
  | some lad => .ok (lads ++ [lad])

def toLogDefine (node : Yaml) : Except Exception LogDefine := do
  match ← node.get "name" with
  | none => .error (.logic_error "log config name is null")
  | some name =>
    let name ← name.asString
    let level ← getString node "level"
    let formatter ← getString node "formatter"
    let appenders ←
      match ← node.get "appenders" with
      | none => .ok []
      | some appenders => (List.range appenders.size).foldlM (pushAppender appenders) []
    .ok { name, level := fromsStringToLevel level, formatter, appenders }

def setLevel (node : Yaml) (level : LogLevel) : Yaml :=
  if level ≠ .UNKNOW then node.setString "level" (LogLevelToString level) else node

def setFormatter (node : Yaml) (formatter : String) : Yaml :=
  if !formatter.isEmpty then node.setString "formatter" formatter else node

def ofAppenderDefine (ap : LogAppenderDefine) : Yaml :=
  let apNode := Yaml.null
  let apNode :=
    if ap.type = 1 then
      (apNode.setString "type" "FileLogAppender").setString "file" ap.file
    else if ap.type = 2 then
      apNode.setString "type" "StdoutLogAppender"
    else
      apNode
  setFormatter (setLevel apNode ap.level) ap.formatter

def ofLogDefine (i : LogDefine) : Yaml :=
  let node := Yaml.null.setString "name" i.name
  let node := setFormatter (setLevel node i.level) i.formatter
  i.appenders.foldl (fun node ap => node.pushBack "appenders" (ofAppenderDefine ap)) node

def fromString (Load : List Char → Yaml) (v : List Char) : Except Exception LogDefine :=
  toLogDefine (Load v)

def toString (emit : Yaml → List Char) (i : LogDefine) : List Char :=
  emit (ofLogDefine i)

section RoundTrip

theorem fromsStringToLevel_mem (str : String) : fromsStringToLevel str ∈ LogLevel.enumerators := by
  have hchain {p : Prop} [Decidable p] {level rest : LogLevel} (hlevel : level ∈ LogLevel.enumerators)
      (hrest : rest ∈ LogLevel.enumerators) : (if p then level else rest) ∈ LogLevel.enumerators := by
    split
    . exact hlevel
    . exact hrest
  unfold fromsStringToLevel
  repeat apply hchain (by decide)
  decide

theorem LogLevelToString_ne (level : LogLevel) : LogLevelToString level ≠ "" := by
  unfold LogLevelToString
  split_ifs <;> decide

theorem fromsStringToLevel_iff (level : LogLevel)
    : fromsStringToLevel (if level ≠ .UNKNOW then LogLevelToString level else "") = level
      ↔ level ∈ LogLevel.enumerators := by
  constructor
  . intro h
    rw [← h]
    apply fromsStringToLevel_mem
  . intro h
    simp only [LogLevel.enumerators, List.mem_cons, List.not_mem_nil, or_false] at h
    rcases h with rfl | rfl | rfl | rfl | rfl | rfl <;> decide

theorem find_setLevel (node : Yaml) (level : LogLevel) (key : String)
    : (setLevel node level).find key
        = if key = "level" ∧ level ≠ .UNKNOW then
            some (.scalar (LogLevelToString level).toList)
          else
            node.find key := by
  unfold setLevel setString
  by_cases hlevel : level = .UNKNOW
  . simp [hlevel]
  . rw [if_pos hlevel, find_set]
    simp [hlevel]

theorem find_setFormatter (node : Yaml) (formatter : String) (key : String)
    : (setFormatter node formatter).find key
        = if key = "formatter" ∧ formatter ≠ "" then
            some (.scalar formatter.toList)
          else
            node.find key := by
  unfold setFormatter setString
  by_cases hformatter : formatter = ""
  . simp [hformatter]
  . rw [if_pos (by simpa using hformatter), find_set]
    simp [hformatter]

theorem find_setFormatter_self {node : Yaml} (h : node.find "formatter" = none) (formatter : String)
    : (setFormatter node formatter).find "formatter"
        = if formatter ≠ "" then some (.scalar formatter.toList) else none := by
  rw [find_setFormatter]
  by_cases hformatter : formatter = ""
  . rw [if_neg (by simp [hformatter]), if_neg (by simp [hformatter]), h]
  . rw [if_pos ⟨rfl, hformatter⟩, if_pos hformatter]

theorem setLevel_ne_scalar {node : Yaml} (h : ∀ text, node ≠ .scalar text) (level : LogLevel)
    : ∀ text, setLevel node level ≠ .scalar text := by
  unfold setLevel
  split
  . exact set_ne_scalar node _ _
  . exact h

theorem setFormatter_ne_scalar {node : Yaml} (h : ∀ text, node ≠ .scalar text) (formatter : String)
    : ∀ text, setFormatter node formatter ≠ .scalar text := by
  unfold setFormatter
  split
  . exact set_ne_scalar node _ _
  . exact h

def kept (ap : LogAppenderDefine) : Option LogAppenderDefine :=
  if ap.type = 1 then
    some { ap with level := .UNKNOW }
  else if ap.type = 2 then
    some { ap with level := .UNKNOW, file := "" }
  else
    none

theorem getString_of_find {node : Yaml} (h : ∀ text, node ≠ .scalar text) {key value : String}
    (hfind : node.find key = if value ≠ "" then some (.scalar value.toList) else none)
    : getString node key = .ok value := by
  unfold getString
  rw [get_eq h, hfind]
  by_cases hvalue : value = ""
  . rw [hvalue]
    rfl
  . rw [if_pos hvalue]
    exact congrArg Except.ok String.ofList_toList

theorem ofAppenderDefine_ne_scalar (ap : LogAppenderDefine)
    : ∀ text, ofAppenderDefine ap ≠ .scalar text := by
  apply setFormatter_ne_scalar
  apply setLevel_ne_scalar
  split
  . apply set_ne_scalar
  . split
    . apply set_ne_scalar
    . intro text h
      cases h

theorem find_type (ap : LogAppenderDefine)
    : (ofAppenderDefine ap).find "type"
        = if ap.type = 1 then
            some (.scalar "FileLogAppender".toList)
          else if ap.type = 2 then
            some (.scalar "StdoutLogAppender".toList)
          else
            none := by
  unfold ofAppenderDefine setString
  rw [find_setFormatter, if_neg (by simp), find_setLevel, if_neg (by simp)]
  split
  . rw [find_set, if_neg (by simp), find_set, if_pos rfl]
  . split
    . rw [find_set, if_pos rfl]
    . rfl

theorem find_file {ap : LogAppenderDefine} (h : ap.type = 1)
    : (ofAppenderDefine ap).find "file" = some (.scalar ap.file.toList) := by
  unfold ofAppenderDefine setString
  rw [find_setFormatter, if_neg (by simp), find_setLevel, if_neg (by simp)]
  rw [if_pos h, find_set, if_pos rfl]

theorem getString_formatter (ap : LogAppenderDefine)
    : getString (ofAppenderDefine ap) "formatter" = .ok ap.formatter := by
  apply getString_of_find (ofAppenderDefine_ne_scalar ap)
  unfold ofAppenderDefine setString
  apply find_setFormatter_self
  rw [find_setLevel, if_neg (by simp)]
  split
  . rw [find_set, if_neg (by simp), find_set, if_neg (by simp)]
    rfl
  . split
    . rw [find_set, if_neg (by simp)]
      rfl
    . rfl

theorem asString_toList (str : String) : (Yaml.scalar str.toList).asString = .ok str :=
  congrArg Except.ok String.ofList_toList

theorem toAppenderDefine_ofAppenderDefine (ap : LogAppenderDefine)
    : toAppenderDefine (ofAppenderDefine ap) = .ok (kept ap) := by
  have hs := ofAppenderDefine_ne_scalar ap
  unfold toAppenderDefine kept
  rw [get_eq hs, find_type, getString_formatter]
  by_cases hone : ap.type = 1
  . rw [if_pos hone, if_pos hone, get_eq hs, find_file hone]
    simp only [asString_toList, bind, Except.bind, if_true, hone]
  . rw [if_neg hone, if_neg hone]
    by_cases htwo : ap.type = 2
    . rw [if_pos htwo, if_pos htwo]
      simp only [asString_toList, bind, Except.bind, if_true, htwo]
      simp
    . rw [if_neg htwo, if_neg htwo]
      rfl

theorem foldlM_pushAppender (aps : List LogAppenderDefine) {n : Nat} (hn : n ≤ aps.length)
    : (List.range n).foldlM (pushAppender (.sequence (aps.map ofAppenderDefine))) []
        = .ok ((aps.take n).filterMap kept) := by
  induction n with
  | zero => rfl
  | succ n ih =>
    have hindex : (Yaml.sequence (aps.map ofAppenderDefine)).index n = ofAppenderDefine aps[n] := by
      simp [index, List.getElem?_eq_getElem (show n < aps.length by omega)]
    have hpush (lads : List LogAppenderDefine)
        : pushAppender (.sequence (aps.map ofAppenderDefine)) lads n
            = .ok (lads ++ (kept aps[n]).toList) := by
      unfold pushAppender
      rw [hindex, toAppenderDefine_ofAppenderDefine]
      cases kept aps[n] with
      | none => simp [bind, Except.bind]
      | some lad => rfl
    have hkept : [aps[n]].filterMap kept = (kept aps[n]).toList := by
      cases h : kept aps[n] <;> simp [h]
    rw [List.range_succ, List.foldlM_append, ih (by omega), List.take_add_one,
      List.getElem?_eq_getElem (show n < aps.length by omega), List.filterMap_append,
      Option.toList_some, hkept]
    simp only [bind, Except.bind, List.foldlM_cons, List.foldlM_nil, hpush, pure, Except.pure]

theorem ofLogDefine_ne_scalar (i : LogDefine) : ∀ text, ofLogDefine i ≠ .scalar text := by
  apply foldl_pushBack_ne_scalar
  apply setFormatter_ne_scalar
  apply setLevel_ne_scalar
  apply set_ne_scalar

theorem find_ofLogDefine (i : LogDefine) {key : String} (h : key ≠ "appenders")
    : (ofLogDefine i).find key
        = (setFormatter (setLevel (Yaml.null.setString "name" i.name) i.level) i.formatter).find key :=
  find_foldl_pushBack_ne ofAppenderDefine "appenders" h _ i.appenders

theorem find_name (i : LogDefine) : (ofLogDefine i).find "name" = some (.scalar i.name.toList) := by
  rw [find_ofLogDefine i (by simp), find_setFormatter, if_neg (by simp), find_setLevel,
    if_neg (by simp)]
  unfold setString
  rw [find_set, if_pos rfl]

theorem toLogDefine_ofLogDefine (i : LogDefine)
    : toLogDefine (ofLogDefine i) = .ok {
        i with
        level := fromsStringToLevel (if i.level ≠ .UNKNOW then LogLevelToString i.level else "")
        appenders := i.appenders.filterMap kept
      } := by
  have hs := ofLogDefine_ne_scalar i
  have hlevel : getString (ofLogDefine i) "level"
      = .ok (if i.level ≠ .UNKNOW then LogLevelToString i.level else "") := by
    apply getString_of_find hs
    rw [find_ofLogDefine i (by simp), find_setFormatter, if_neg (by simp), find_setLevel]
    by_cases hunknow : i.level = .UNKNOW
    . rw [if_neg (by simp [hunknow]), if_neg (by simp [hunknow])]
      rfl
    . rw [if_pos ⟨rfl, hunknow⟩, if_pos hunknow, if_pos (LogLevelToString_ne i.level)]
  have hformatter : getString (ofLogDefine i) "formatter" = .ok i.formatter := by
    apply getString_of_find hs
    rw [find_ofLogDefine i (by simp)]
    apply find_setFormatter_self
    rw [find_setLevel, if_neg (by simp)]
    rfl
  have happenders : (ofLogDefine i).find "appenders"
      = if i.appenders = [] then none
        else some (.sequence (i.appenders.map ofAppenderDefine)) := by
    apply find_foldl_pushBack
    rw [find_setFormatter, if_neg (by simp), find_setLevel, if_neg (by simp)]
    rfl
  have hloop := foldlM_pushAppender i.appenders (Nat.le_refl _)
  rw [List.take_length] at hloop
  unfold toLogDefine
  rw [get_eq hs, find_name, get_eq hs, happenders, hlevel, hformatter]
  simp only [asString_toList, bind, Except.bind]
  by_cases hnil : i.appenders = []
  . rw [if_pos hnil, hnil]
    rfl
  . have hsize : (Yaml.sequence (i.appenders.map ofAppenderDefine)).size = i.appenders.length :=
      List.length_map ofAppenderDefine
    rw [if_neg hnil]
    dsimp only
    rw [hsize, hloop]

theorem kept_eq_self_iff (ap : LogAppenderDefine)
    : kept ap = some ap ↔ ap.level = .UNKNOW ∧ (ap.type = 1 ∨ ap.type = 2 ∧ ap.file = "") := by
  obtain ⟨type, level, file, formatter⟩ := ap
  unfold kept
  dsimp only
  by_cases hone : type = 1
  . simp [hone, eq_comm]
  . by_cases htwo : type = 2
    . simp [htwo, eq_comm]
    . simp [hone, htwo]

theorem fromString_toString_iff (emit : Yaml → List Char) (Load : List Char → Yaml) (i : LogDefine)
    (h : Load (emit (ofLogDefine i)) = ofLogDefine i)
    : fromString Load (toString emit i) = .ok i
      ↔ i.level ∈ LogLevel.enumerators
        ∧ ∀ ap ∈ i.appenders,
            ap.level = .UNKNOW ∧ (ap.type = 1 ∨ ap.type = 2 ∧ ap.file = "") := by
  unfold fromString toString
  rw [h, toLogDefine_ofLogDefine, ← fromsStringToLevel_iff]
  simp only [← kept_eq_self_iff, ← Keyed.filterMap_eq_self_iff]
  obtain ⟨name, level, formatter, appenders⟩ := i
  simp

theorem fromString_toString_iff_stdout
    : fromString
        (fun v =>
          if v = "name: root\nlevel: INFO\nappenders:\n  - type: StdoutLogAppender".toList then
            ofLogDefine ⟨"root", .INFO, "", [⟨2, .UNKNOW, "", ""⟩]⟩
          else
            .null)
        (toString (fun _ => "name: root\nlevel: INFO\nappenders:\n  - type: StdoutLogAppender".toList)
          ⟨"root", .INFO, "", [⟨2, .UNKNOW, "", ""⟩]⟩)
      = .ok ⟨"root", .INFO, "", [⟨2, .UNKNOW, "", ""⟩]⟩ :=
  (fromString_toString_iff _ _ ⟨"root", .INFO, "", [⟨2, .UNKNOW, "", ""⟩]⟩ (if_pos rfl)).mpr
    ⟨by decide, by simp⟩

theorem appender_level_lost
    : toLogDefine (ofLogDefine ⟨"root", .INFO, "", [⟨2, .ERROR, "", ""⟩]⟩)
        = .ok ⟨"root", .INFO, "", [⟨2, .UNKNOW, "", ""⟩]⟩
      ∧ toLogDefine (ofLogDefine ⟨"root", .INFO, "", [⟨2, .ERROR, "", ""⟩]⟩)
        ≠ .ok ⟨"root", .INFO, "", [⟨2, .ERROR, "", ""⟩]⟩ := by
  rw [toLogDefine_ofLogDefine]
  constructor
  . rfl
  . simp [kept, LogLevel.UNKNOW, LogLevel.ERROR]

end RoundTrip

end LexicalCast

end CXS
