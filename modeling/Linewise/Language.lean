import Linewise.Markup.Scan
import Linewise.PlainText

/-!
# Languages

The built-in languages, how each is named, and how the language of a file is told from its extension.
-/

namespace Linewise

/-- A built-in language. -/
inductive Language where
  | c
  | java
  | javaScript
  | rust
  | html
  | plainText
  deriving DecidableEq, Repr, Inhabited

namespace Language

/-- Every built-in language. -/
def all : List Language := [.c, .java, .javaScript, .rust, .html, .plainText]

/-- The name by which programs refer to a language. -/
def id : Language → String
  | .c => "text/c"
  | .java => "text/java"
  | .javaScript => "text/javascript"
  | .rust => "text/rust"
  | .html => "text/html"
  | .plainText => "text/plain"

/-- The name shown to people. -/
def name : Language → String
  | .c => "C"
  | .java => "Java"
  | .javaScript => "JavaScript"
  | .rust => "Rust"
  | .html => "HTML"
  | .plainText => "Plain Text"

/-- The scanner of a language. -/
def scanner : Language → Scanner
  | .c => CFamily.scanner .c
  | .java => CFamily.scanner .java
  | .javaScript => CFamily.scanner .javaScript
  | .rust => CFamily.scanner .rust
  | .html => Markup.scanner
  | .plainText => PlainText.scanner

/-- Every built-in scanner keeps the contract of scanners. -/
theorem scanner_lawful (l : Language) : l.scanner.Lawful := by
  cases l
  case html => exact Markup.scanner_lawful
  case plainText => exact PlainText.scanner_lawful
  all_goals exact CFamily.scanner_lawful _

/-- The language of a given identifier. -/
def ofId? (s : String) : Option Language := all.find? fun l => l.id == s

/-- The language that an extension stands for, in small or capital letters. -/
def ofExtension (ext : String) : Language :=
  let e := String.ofList (ext.toList.map Char.toLower)
  if ["c", "h"].contains e then .c
  else if ["java"].contains e then .java
  else if ["js", "jsx", "mjs", "cjs"].contains e then .javaScript
  else if ["rs"].contains e then .rust
  else if ["html", "htm", "xhtml", "xml"].contains e then .html
  else .plainText

/-- The name of the file at the end of a path. Slashes at the end, and steps that stay where they are,
do not count; a path that ends with a step upwards names no file. -/
def fileName? (path : String) : Option String :=
  ((path.splitOn "/").filter fun s => s != "" && s != ".").getLast?.filter (· != "..")

/-- The extension of a path: what follows the last point of its file name, unless that point is the
first character. -/
def extension? (path : String) : Option String :=
  (fileName? path).bind fun name =>
    let backwards := name.toList.reverse
    let ext := (backwards.takeWhile (· != '.')).reverse
    match backwards.dropWhile (· != '.') with
    | [] | ['.'] => none
    | _ => some (String.ofList ext)

/-- The language of the file at a path, told from its extension. -/
def ofPath (path : String) : Language :=
  ((extension? path).map ofExtension).getD .plainText

end Language

end Linewise
