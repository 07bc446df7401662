import Linewise.Failure
import Linewise.Settings.Basic
import Linewise.Toml.Document

/-!
# Reading settings

Settings are written as a TOML document. A key that is missing leaves its setting at the default, a key
that names no setting is ignored, and a value of the wrong type makes the whole document unusable. At
least one character of each line is always scanned.
-/

namespace Linewise.Settings

open Toml (Entries Value)

/-- The value of a setting, by default or as written. The written value has to be one that `read`
takes. -/
def valueOf {α : Type} (es : Entries) (key : String) (default : α) (read : Value → Option α) :
    Option α :=
  match es.get? key with
  | none => some default
  | some (.value v) => read v
  | some _ => none

/-- A number of things: a whole number that is not negative. -/
def count? : Value → Option Nat
  | .integer n => if 0 ≤ n then some n.toNat else none
  | _ => none

/-- A text. -/
def text? : Value → Option String
  | .string s => some s
  | _ => none

/-- A switch. -/
def switch? : Value → Option Bool
  | .boolean b => some b
  | _ => none

/-- The settings that the keys of a document give. -/
def ofEntries? (es : Entries) : Option Settings := do
  let d : Settings := {}
  let scanLimit ← valueOf es "max_line_scan" d.scanLimit count?
  let parserDelay ← valueOf es "parser_delay_ms" d.parserDelay count?
  let defaultLanguage ← valueOf es "default_language" d.defaultLanguage text?
  let detectLinks ← valueOf es "detect_hyperlinks" d.detectLinks switch?
  let validateTokens ← valueOf es "validate_tokens" d.validateTokens switch?
  return ⟨max scanLimit 1, parserDelay, defaultLanguage, detectLinks, validateTokens⟩

/-- The settings that a text gives. -/
def ofText (text : List Char) : Except Failure Settings :=
  match (Toml.document? text).bind ofEntries? with
  | some settings => .ok settings
  | none => .error .configuration

/-- The settings of a file, of which the content is given, if it is there. -/
def ofFile (content : Option ByteArray) : Except Failure Settings :=
  match content.bind String.fromUTF8? with
  | some text => ofText text.toList
  | none => .error .unreadableFile

end Linewise.Settings
