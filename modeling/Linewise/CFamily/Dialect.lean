import Linewise.Text.Class

/-!
# Dialects of the C family

C, Java, JavaScript and Rust share their comments, quotes, brackets and most operators. A dialect says
in what one of them differs: which words are special, and which of the constructs it has that not all
of them have.
-/

namespace Linewise.CFamily

/-- A language of the C family. -/
structure Dialect where
  name : String
  keywords : List String
  controlWords : List String
  typeNames : List String
  /-- Single quotes delimit a character instead of a string. -/
  charLiterals : Bool
  /-- A single quote in front of a word makes it a lifetime or a label. -/
  lifetimes : Bool
  /-- Backticks delimit strings that run over line ends. -/
  templateStrings : Bool
  /-- Double-quoted strings run over line ends. -/
  multilineStrings : Bool
  /-- A block comment may hold another one. -/
  nestedComments : Bool
  /-- Slashes may delimit a regular expression. -/
  patterns : Bool
  /-- A hash in front of the rest of a line makes a directive. -/
  directives : Bool
  /-- The character that introduces an annotation. -/
  annotationMark : Option Char
  /-- A dollar sign may stand in a word. -/
  dollarWords : Bool
  deriving DecidableEq, Repr

namespace Dialect

/-- Whether a word may start with a character. -/
def isWordStart (d : Dialect) (c : Char) : Bool :=
  Text.isAlphabetic c || c == '_' || (d.dollarWords && c == '$')

/-- Whether a word may go on with a character. -/
def isWordChar (d : Dialect) (c : Char) : Bool :=
  Text.isAlphanumeric c || c == '_' || (d.dollarWords && c == '$')

/-- C, with its preprocessor. -/
def c : Dialect where
  name := "C"
  keywords := [
    "auto", "const", "enum", "extern", "inline", "register", "restrict", "signed", "sizeof",
    "static", "struct", "typedef", "union", "unsigned", "volatile", "NULL"]
  controlWords := [
    "break", "case", "continue", "default", "do", "else", "for", "goto", "if", "return",
    "switch", "while"]
  typeNames := ["char", "double", "float", "int", "long", "short", "void", "size_t", "bool"]
  charLiterals := true
  lifetimes := false
  templateStrings := false
  multilineStrings := false
  nestedComments := false
  patterns := false
  directives := true
  annotationMark := none
  dollarWords := false

/-- Java, with its annotations. -/
def java : Dialect where
  name := "Java"
  keywords := [
    "abstract", "class", "enum", "extends", "final", "implements", "import", "instanceof",
    "interface", "native", "new", "package", "private", "protected", "public", "static",
    "super", "synchronized", "this", "throws", "transient", "volatile", "null", "var", "record"]
  controlWords := [
    "assert", "break", "case", "catch", "continue", "default", "do", "else", "finally",
    "for", "if", "return", "switch", "throw", "try", "while", "yield"]
  typeNames := ["boolean", "byte", "char", "double", "float", "int", "long", "short", "void"]
  charLiterals := true
  lifetimes := false
  templateStrings := false
  multilineStrings := false
  nestedComments := false
  patterns := false
  directives := false
  annotationMark := some '@'
  dollarWords := true

/-- JavaScript, with template strings and regular expressions. -/
def javaScript : Dialect where
  name := "JavaScript"
  keywords := [
    "async", "await", "class", "const", "delete", "export", "extends", "from", "function",
    "import", "in", "instanceof", "let", "new", "null", "of", "static", "super", "this",
    "typeof", "undefined", "var", "void"]
  controlWords := [
    "break", "case", "catch", "continue", "default", "do", "else", "finally", "for", "if",
    "return", "switch", "throw", "try", "while", "yield"]
  typeNames := []
  charLiterals := false
  lifetimes := false
  templateStrings := true
  multilineStrings := false
  nestedComments := false
  patterns := true
  directives := false
  annotationMark := some '@'
  dollarWords := true

/-- Rust, with lifetimes, nested comments and strings over several lines. -/
def rust : Dialect where
  name := "Rust"
  keywords := [
    "as", "async", "await", "const", "crate", "dyn", "enum", "extern", "fn", "impl", "let",
    "mod", "move", "mut", "pub", "ref", "self", "Self", "static", "struct", "super",
    "trait", "type", "unsafe", "use", "where"]
  controlWords := [
    "break", "continue", "else", "for", "if", "in", "loop", "match", "return", "while"]
  typeNames := [
    "bool", "char", "f32", "f64", "i8", "i16", "i32", "i64", "i128", "isize", "str",
    "u8", "u16", "u32", "u64", "u128", "usize", "String"]
  charLiterals := true
  lifetimes := true
  templateStrings := false
  multilineStrings := true
  nestedComments := true
  patterns := false
  directives := false
  annotationMark := some '#'
  dollarWords := false

end Dialect

end Linewise.CFamily
