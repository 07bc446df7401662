import Linewise.Text.Class

/-!
# Kinds of tokens

A token's kind says what its characters are in the language of the line. Each kind has a name, which
configuration and diagnostics use, and a number, which is its place in the list of all kinds.
-/

namespace Linewise.Token

/-- What the characters of a token are. -/
inductive Kind where
  /-- The end of a line. No text has this kind. -/
  | null
  /-- A comment that runs to the end of its line. -/
  | commentEol
  /-- A block comment. -/
  | commentMultiline
  /-- A block comment that documents what follows. -/
  | commentDocumentation
  /-- A marker word inside a comment. -/
  | commentKeyword
  /-- A keyword. -/
  | reservedWord
  /-- A keyword that directs control flow. -/
  | controlWord
  /-- A word in front of an opening parenthesis. -/
  | function
  /-- The name of a built-in type. -/
  | dataType
  /-- Any other word. -/
  | identifier
  /-- A word behind the character that introduces annotations. -/
  | attribute
  /-- A directive at the start of a line. -/
  | preprocessor
  /-- A truth value. -/
  | boolean
  /-- A whole number in decimal notation. -/
  | decimal
  /-- A number with a fraction, an exponent or a float suffix. -/
  | float
  /-- A number in hexadecimal notation. -/
  | hexadecimal
  /-- A string literal. -/
  | string
  /-- A character literal. -/
  | char
  /-- A template string between backticks. -/
  | template
  /-- A regular expression between slashes. -/
  | pattern
  /-- A run of operator characters. -/
  | operator
  /-- A bracket, a semicolon or a comma. -/
  | separator
  /-- A run of blanks. -/
  | whitespace
  /-- What opens or closes a tag. -/
  | tagDelimiter
  /-- The name of a tag. -/
  | tagName
  /-- The name of an attribute in a tag. -/
  | tagAttribute
  /-- The quoted value of an attribute. -/
  | tagValue
  /-- A comment in markup. -/
  | markupComment
  /-- A named or numbered character in markup. -/
  | entity
  /-- A declaration or processing instruction in markup. -/
  | instruction
  /-- A character that starts nothing, or text past the scan limit. -/
  | errorWord
  /-- A malformed number. -/
  | errorNumber
  /-- A string literal that does not end. -/
  | errorString
  /-- A malformed character literal. -/
  | errorChar
  deriving DecidableEq, Repr, Inhabited

namespace Kind

/-- Every kind, in the order of their numbers. -/
def all : List Kind :=
  [.null, .commentEol, .commentMultiline, .commentDocumentation, .commentKeyword,
   .reservedWord, .controlWord, .function, .dataType, .identifier, .attribute,
   .preprocessor, .boolean, .decimal, .float, .hexadecimal, .string, .char, .template,
   .pattern, .operator, .separator, .whitespace, .tagDelimiter, .tagName, .tagAttribute,
   .tagValue, .markupComment, .entity, .instruction, .errorWord, .errorNumber, .errorString,
   .errorChar]

/-- The name of a kind. -/
def name : Kind → String
  | .null => "null"
  | .commentEol => "comment_eol"
  | .commentMultiline => "comment_multiline"
  | .commentDocumentation => "comment_documentation"
  | .commentKeyword => "comment_keyword"
  | .reservedWord => "reserved_word"
  | .controlWord => "reserved_word_2"
  | .function => "function"
  | .dataType => "data_type"
  | .identifier => "identifier"
  | .attribute => "annotation"
  | .preprocessor => "preprocessor"
  | .boolean => "literal_boolean"
  | .decimal => "literal_number_decimal_int"
  | .float => "literal_number_float"
  | .hexadecimal => "literal_number_hexadecimal"
  | .string => "literal_string_double_quote"
  | .char => "literal_char"
  | .template => "literal_backtick"
  | .pattern => "literal_regex"
  | .operator => "operator"
  | .separator => "separator"
  | .whitespace => "whitespace"
  | .tagDelimiter => "markup_tag_delimiter"
  | .tagName => "markup_tag_name"
  | .tagAttribute => "markup_tag_attribute"
  | .tagValue => "markup_tag_attribute_value"
  | .markupComment => "markup_comment"
  | .entity => "markup_entity_reference"
  | .instruction => "markup_processing_instruction"
  | .errorWord => "error_identifier"
  | .errorNumber => "error_number_format"
  | .errorString => "error_string"
  | .errorChar => "error_char"

/-- The number of a kind. -/
def value (k : Kind) : Nat := all.idxOf k

/-- The kind of a given number. -/
def ofValue? (n : Nat) : Option Kind := all[n]?

/-- The kind of a given name, with blanks around it and the case of ASCII letters ignored. -/
def ofName? (s : String) : Option Kind :=
  let trimmed := ((s.toList.dropWhile Text.isBlank).reverse.dropWhile Text.isBlank).reverse
  let wanted := String.ofList (trimmed.map Char.toLower)
  all.find? fun k => k.name == wanted

/-- Whether text of this kind is a comment. -/
def isComment : Kind → Bool
  | .commentEol | .commentMultiline | .commentDocumentation | .commentKeyword | .markupComment => true
  | _ => false

/-- Whether text of this kind is a literal between delimiters, well formed or not. -/
def isStringLike : Kind → Bool
  | .string | .char | .template | .pattern | .tagValue | .errorString | .errorChar => true
  | _ => false

/-- Whether text of this kind is a lexical error. -/
def isError : Kind → Bool
  | .errorWord | .errorNumber | .errorString | .errorChar => true
  | _ => false

/-- Whether this kind stands for text: every kind but the end of a line does. -/
def isPaintable (k : Kind) : Bool := k != .null

theorem ofValue?_value (k : Kind) : ofValue? k.value = some k := by
  cases k <;> rfl

end Kind

end Linewise.Token
