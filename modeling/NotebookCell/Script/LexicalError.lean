import NotebookCell.Text.Quoted

/-!
# Lexical errors

What can be wrong with the characters of a token or of a comment. An error has a wording of its own,
and a shorter form for messages that tell which token they found.
-/

namespace NotebookCell.Script

inductive LexicalError where
  | unexpectedCharacter (c : Char)
  | unterminatedString
  | unterminatedRegex
  | unterminatedTemplate
  | unterminatedComment
  | htmlComment
  | conflictMarker
  | badEscape (wanted : String)
  | invalidUnicodeEscape
  | invalidStringEscape
  | unicodeEscapeExpected
  | invalidIdentifierCharacter
  | escapeInReservedWord (word : String)
  | legacyOctal
  | legacyDecimal
  | misplacedSeparator
  | digitExpected (base : Nat)
  | exponentExpected
  | identifierAfterNumber
  deriving DecidableEq, Repr

namespace LexicalError

def message : LexicalError → String
  | unexpectedCharacter c => "Unexpected character " ++ quoted '\x27' (String.singleton c)
  | unterminatedString => "Unterminated string constant"
  | unterminatedRegex => "Unterminated regexp literal"
  | unterminatedTemplate => "Unterminated template"
  | unterminatedComment => "Unterminated block comment"
  | htmlComment => "Legacy comments cannot be used in module code"
  | conflictMarker => "Merge conflict marker encountered."
  | badEscape wanted => "Bad character escape sequence, expected " ++ wanted
  | invalidUnicodeEscape => "Invalid unicode escape"
  | invalidStringEscape => "Invalid string escape"
  | unicodeEscapeExpected => "Expected unicode escape"
  | invalidIdentifierCharacter => "Invalid character in identifier"
  | escapeInReservedWord word => "Unexpected escape sequence in reserved word: " ++ word
  | legacyOctal => "Legacy octal escape is not permitted in strict mode"
  | legacyDecimal => "Legacy decimal escape is not permitted in strict mode"
  | misplacedSeparator => "A numeric separator is only allowed between two digits"
  | digitExpected base =>
    if base = 2 then "Expected a binary digit"
    else if base = 8 then "Expected an octal digit"
    else if base = 10 then "Expected a decimal digit"
    else "Expected a hexadecimal digit"
  | exponentExpected => "Expected +, - or decimal digit after e"
  | identifierAfterNumber => "Identifier cannot follow number"

def withField (label field value : String) : String :=
  label ++ " \x7b " ++ field ++ ": " ++ value ++ " \x7d"

def shown : LexicalError → String
  | unexpectedCharacter c => withField "UnexpectedChar" "c" (quoted '\x27' (String.singleton c))
  | unterminatedString => "UnterminatedStrLit"
  | unterminatedRegex => "UnterminatedRegExp"
  | unterminatedTemplate => "UnterminatedTpl"
  | unterminatedComment => "UnterminatedBlockComment"
  | htmlComment => "LegacyCommentInModule"
  | conflictMarker => "TS1185"
  | badEscape wanted => withField "BadCharacterEscapeSequence" "expected" (quoted '\x22' wanted)
  | invalidUnicodeEscape => "InvalidUnicodeEscape"
  | invalidStringEscape => "InvalidStrEscape"
  | unicodeEscapeExpected => "ExpectedUnicodeEscape"
  | invalidIdentifierCharacter => "InvalidIdentChar"
  | escapeInReservedWord word => withField "EscapeInReservedWord" "word" (quoted '\x22' word)
  | legacyOctal => "LegacyOctal"
  | legacyDecimal => "LegacyDecimal"
  | misplacedSeparator => "NumericSeparatorIsAllowedOnlyBetweenTwoDigits"
  | digitExpected base => withField "ExpectedDigit" "radix" (toString base)
  | exponentExpected => "NumLitTerminatedWithExp"
  | identifierAfterNumber => "IdentAfterNum"

end LexicalError

end NotebookCell.Script
