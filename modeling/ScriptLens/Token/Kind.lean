/-!
# Kinds of tokens

The fixed vocabulary of the language: its punctuation, its keywords with their
two families, the built-in types and the modifiers, and the kinds of tokens
that they make together with the literals and the comments.

Each of these has a spelling in the source and a name in listings. The order
of the constructors is the order in which listings number the kinds.
-/

namespace ScriptLens

/-- The punctuation of the language. -/
inductive Punctuation
  | ellipsis | dotDot | dot | arrow | doubleColon | colon
  | shiftLeftAssign | shiftRightAssign | shiftLeft | shiftRight
  | lessEqual | greaterEqual | less | greater | equal | notEqual | assign | bang
  | andAnd | orOr | andAssign | orAssign | xorAssign | ampersand | bar | caret | tilde
  | increment | decrement
  | plusAssign | minusAssign | timesAssign | divideAssign | remainderAssign
  | plus | minus | star | slash | percent
  | openArray | openMapping
  | openParen | closeParen | openBrace | closeBrace | openBracket | closeBracket
  | semicolon | comma | question
deriving DecidableEq, Repr

/-- The built-in types. -/
inductive BasicType
  | void | int | bool | string | symbol | object | mapping | any | function
deriving DecidableEq, Repr

/-- The modifiers that may stand before a declaration. -/
inductive Modifier
  | publicMod | privateMod | protectedMod | staticMod
  | nomaskMod | varargsMod | nosaveMod | overrideMod
deriving DecidableEq, Repr

/-- The keywords. The built-in types and the modifiers are families of their
own; `nil` belongs to neither, although it can name a type. -/
inductive Keyword
  | includeKw | inheritKw | classKw
  | ifKw | elseKw | whileKw | doKw | forKw | foreachKw | inKw
  | switchKw | caseKw | defaultKw | tryKw | catchKw
  | returnKw | breakKw | continueKw | newKw
  | nilKw | trueKw | falseKw | thisKw
  | basicType (type : BasicType)
  | modifier (modifier : Modifier)
deriving DecidableEq, Repr

/-- The kinds of tokens. -/
inductive TokenKind
  | unknown | endOfFile | lineComment | blockComment
  | identifier | integer | string | character | symbol
  | punctuation (mark : Punctuation)
  | keyword (word : Keyword)
deriving DecidableEq, Repr

namespace Punctuation

/-- All punctuation, in the order of its numbers. -/
def all : List Punctuation := [
  ellipsis, dotDot, dot, arrow, doubleColon, colon,
  shiftLeftAssign, shiftRightAssign, shiftLeft, shiftRight,
  lessEqual, greaterEqual, less, greater, equal, notEqual, assign, bang,
  andAnd, orOr, andAssign, orAssign, xorAssign, ampersand, bar, caret, tilde,
  increment, decrement,
  plusAssign, minusAssign, timesAssign, divideAssign, remainderAssign,
  plus, minus, star, slash, percent, openArray, openMapping,
  openParen, closeParen, openBrace, closeBrace, openBracket, closeBracket,
  semicolon, comma, question]

/-- How punctuation is written. -/
def spelling : Punctuation → List Char
  | ellipsis => ['.', '.', '.']
  | dotDot => ['.', '.']
  | dot => ['.']
  | arrow => ['-', '>']
  | doubleColon => [':', ':']
  | colon => [':']
  | shiftLeftAssign => ['<', '<', '=']
  | shiftRightAssign => ['>', '>', '=']
  | shiftLeft => ['<', '<']
  | shiftRight => ['>', '>']
  | lessEqual => ['<', '=']
  | greaterEqual => ['>', '=']
  | less => ['<']
  | greater => ['>']
  | equal => ['=', '=']
  | notEqual => ['!', '=']
  | assign => ['=']
  | bang => ['!']
  | andAnd => ['&', '&']
  | orOr => ['|', '|']
  | andAssign => ['&', '=']
  | orAssign => ['|', '=']
  | xorAssign => ['^', '=']
  | ampersand => ['&']
  | bar => ['|']
  | caret => ['^']
  | tilde => ['~']
  | increment => ['+', '+']
  | decrement => ['-', '-']
  | plusAssign => ['+', '=']
  | minusAssign => ['-', '=']
  | timesAssign => ['*', '=']
  | divideAssign => ['/', '=']
  | remainderAssign => ['%', '=']
  | plus => ['+']
  | minus => ['-']
  | star => ['*']
  | slash => ['/']
  | percent => ['%']
  | openArray => ['(', '\x7b']
  | openMapping => ['(', '[']
  | openParen => ['(']
  | closeParen => [')']
  | openBrace => ['\x7b']
  | closeBrace => ['\x7d']
  | openBracket => ['[']
  | closeBracket => [']']
  | semicolon => [';']
  | comma => [',']
  | question => ['?']

/-- The name of punctuation in listings. -/
def name : Punctuation → String
  | ellipsis => "DotDotDotToken"
  | dotDot => "DotDotToken"
  | dot => "DotToken"
  | arrow => "MinusGreaterThanToken"
  | doubleColon => "ColonColonToken"
  | colon => "ColonToken"
  | shiftLeftAssign => "LessThanLessThanEqualsToken"
  | shiftRightAssign => "GreaterThanGreaterThanEqualsToken"
  | shiftLeft => "LessThanLessThanToken"
  | shiftRight => "GreaterThanGreaterThanToken"
  | lessEqual => "LessThanEqualsToken"
  | greaterEqual => "GreaterThanEqualsToken"
  | less => "LessThanToken"
  | greater => "GreaterThanToken"
  | equal => "EqualsEqualsToken"
  | notEqual => "ExclamationEqualsToken"
  | assign => "EqualsToken"
  | bang => "ExclamationToken"
  | andAnd => "AmpersandAmpersandToken"
  | orOr => "BarBarToken"
  | andAssign => "AmpersandEqualsToken"
  | orAssign => "BarEqualsToken"
  | xorAssign => "CaretEqualsToken"
  | ampersand => "AmpersandToken"
  | bar => "BarToken"
  | caret => "CaretToken"
  | tilde => "TildeToken"
  | increment => "PlusPlusToken"
  | decrement => "MinusMinusToken"
  | plusAssign => "PlusEqualsToken"
  | minusAssign => "MinusEqualsToken"
  | timesAssign => "AsteriskEqualsToken"
  | divideAssign => "SlashEqualsToken"
  | remainderAssign => "PercentEqualsToken"
  | plus => "PlusToken"
  | minus => "MinusToken"
  | star => "AsteriskToken"
  | slash => "SlashToken"
  | percent => "PercentToken"
  | openArray => "OpenParenBraceToken"
  | openMapping => "OpenParenBracketToken"
  | openParen => "OpenParenToken"
  | closeParen => "CloseParenToken"
  | openBrace => "OpenBraceToken"
  | closeBrace => "CloseBraceToken"
  | openBracket => "OpenBracketToken"
  | closeBracket => "CloseBracketToken"
  | semicolon => "SemicolonToken"
  | comma => "CommaToken"
  | question => "QuestionToken"

/-- Punctuation by falling length of its spelling, so that the first that
starts a text is the longest that does. -/
def longestFirst : List Punctuation :=
  all.filter (·.spelling.length = 3) ++ all.filter (·.spelling.length = 2)
    ++ all.filter (·.spelling.length = 1)

/-- The longest punctuation that starts a text. -/
def longest? (cs : List Char) : Option Punctuation :=
  longestFirst.find? fun p => p.spelling.isPrefixOf cs

/-- Whether punctuation is an assignment operator. -/
def isAssignment : Punctuation → Bool
  | assign | plusAssign | minusAssign | timesAssign | divideAssign | remainderAssign
  | andAssign | orAssign | xorAssign | shiftLeftAssign | shiftRightAssign => true
  | _ => false

/-- Whether punctuation brackets or separates parts rather than combining
them. -/
def isDelimiter : Punctuation → Bool
  | openParen | closeParen | openBrace | closeBrace | openBracket | closeBracket
  | openArray | openMapping | semicolon | comma | ellipsis => true
  | _ => false

theorem mem_all (p : Punctuation) : p ∈ all := by cases p <;> decide

end Punctuation

namespace BasicType

/-- All built-in types, in the order of their numbers. -/
def all : List BasicType := [void, int, bool, string, symbol, object, mapping, any, function]

/-- How a built-in type is written. -/
def spelling : BasicType → String
  | void => "void"
  | int => "int"
  | bool => "bool"
  | string => "string"
  | symbol => "symbol"
  | object => "object"
  | mapping => "mapping"
  | any => "any"
  | function => "function"

/-- The name of a built-in type's keyword in listings. -/
def name : BasicType → String
  | void => "VoidKeyword"
  | int => "IntKeyword"
  | bool => "BoolKeyword"
  | string => "StringKeyword"
  | symbol => "SymbolKeyword"
  | object => "ObjectKeyword"
  | mapping => "MappingKeyword"
  | any => "AnyKeyword"
  | function => "FunctionKeyword"

end BasicType

namespace Modifier

/-- All modifiers, in the order of their numbers. -/
def all : List Modifier :=
  [publicMod, privateMod, protectedMod, staticMod, nomaskMod, varargsMod, nosaveMod, overrideMod]

/-- How a modifier is written. -/
def spelling : Modifier → String
  | publicMod => "public"
  | privateMod => "private"
  | protectedMod => "protected"
  | staticMod => "static"
  | nomaskMod => "nomask"
  | varargsMod => "varargs"
  | nosaveMod => "nosave"
  | overrideMod => "override"

/-- The name of a modifier's keyword in listings. -/
def name : Modifier → String
  | publicMod => "PublicKeyword"
  | privateMod => "PrivateKeyword"
  | protectedMod => "ProtectedKeyword"
  | staticMod => "StaticKeyword"
  | nomaskMod => "NomaskKeyword"
  | varargsMod => "VarargsKeyword"
  | nosaveMod => "NosaveKeyword"
  | overrideMod => "OverrideKeyword"

end Modifier

namespace Keyword

/-- All keywords, in the order of their numbers. -/
def all : List Keyword :=
  [includeKw, inheritKw, classKw, ifKw, elseKw, whileKw, doKw, forKw, foreachKw, inKw,
    switchKw, caseKw, defaultKw, tryKw, catchKw, returnKw, breakKw, continueKw, newKw,
    nilKw, trueKw, falseKw, thisKw]
    ++ BasicType.all.map basicType ++ Modifier.all.map modifier

/-- How a keyword is written. -/
def spelling : Keyword → String
  | includeKw => "#include"
  | inheritKw => "inherit"
  | classKw => "class"
  | ifKw => "if"
  | elseKw => "else"
  | whileKw => "while"
  | doKw => "do"
  | forKw => "for"
  | foreachKw => "foreach"
  | inKw => "in"
  | switchKw => "switch"
  | caseKw => "case"
  | defaultKw => "default"
  | tryKw => "try"
  | catchKw => "catch"
  | returnKw => "return"
  | breakKw => "break"
  | continueKw => "continue"
  | newKw => "new"
  | nilKw => "nil"
  | trueKw => "true"
  | falseKw => "false"
  | thisKw => "this"
  | basicType t => t.spelling
  | modifier m => m.spelling

/-- The name of a keyword in listings. -/
def name : Keyword → String
  | includeKw => "HashIncludeKeyword"
  | inheritKw => "InheritKeyword"
  | classKw => "ClassKeyword"
  | ifKw => "IfKeyword"
  | elseKw => "ElseKeyword"
  | whileKw => "WhileKeyword"
  | doKw => "DoKeyword"
  | forKw => "ForKeyword"
  | foreachKw => "ForeachKeyword"
  | inKw => "InKeyword"
  | switchKw => "SwitchKeyword"
  | caseKw => "CaseKeyword"
  | defaultKw => "DefaultKeyword"
  | tryKw => "TryKeyword"
  | catchKw => "CatchKeyword"
  | returnKw => "ReturnKeyword"
  | breakKw => "BreakKeyword"
  | continueKw => "ContinueKeyword"
  | newKw => "NewKeyword"
  | nilKw => "NilKeyword"
  | trueKw => "TrueKeyword"
  | falseKw => "FalseKeyword"
  | thisKw => "ThisKeyword"
  | basicType t => t.name
  | modifier m => m.name

/-- The keyword that a word spells. -/
def ofSpelling? (word : String) : Option Keyword :=
  all.find? (·.spelling = word)

theorem mem_all (k : Keyword) : k ∈ all := by
  cases k with
  | basicType t => cases t <;> decide
  | modifier m => cases m <;> decide
  | _ => decide

end Keyword

namespace TokenKind

/-- All kinds, in the order of their numbers. -/
def all : List TokenKind :=
  [unknown, endOfFile, lineComment, blockComment, identifier, integer, string, character, symbol]
    ++ Punctuation.all.map punctuation ++ Keyword.all.map keyword

/-- The name of a kind in listings. -/
def name : TokenKind → String
  | unknown => "Unknown"
  | endOfFile => "EndOfFileToken"
  | lineComment => "SingleLineCommentTrivia"
  | blockComment => "MultiLineCommentTrivia"
  | identifier => "Identifier"
  | integer => "IntegerLiteral"
  | string => "StringLiteral"
  | character => "CharacterLiteral"
  | symbol => "SymbolLiteral"
  | punctuation p => p.name
  | keyword k => k.name

/-- The kind that a listing's name stands for. -/
def ofName? (name : String) : Option TokenKind := all.find? (·.name = name)

/-- The number of a kind: its place among all kinds. -/
def number (kind : TokenKind) : Nat := all.idxOf kind

/-- The spelling of a keyword's kind. -/
def keywordText? : TokenKind → Option String
  | keyword k => some k.spelling
  | _ => none

/-- The spelling of a punctuation kind. -/
def punctuationText? : TokenKind → Option String
  | punctuation p => some (String.ofList p.spelling)
  | _ => none

/-- The spelling of a kind that has only one. -/
def text? (kind : TokenKind) : Option String := kind.keywordText?.or kind.punctuationText?

/-- Whether the kind is a keyword. -/
def isKeyword : TokenKind → Bool
  | keyword _ => true
  | _ => false

/-- Whether the kind is the keyword of a built-in type. -/
def isBasicType : TokenKind → Bool
  | keyword (.basicType _) => true
  | _ => false

/-- Whether the kind is a modifier. -/
def isModifier : TokenKind → Bool
  | keyword (.modifier _) => true
  | _ => false

/-- Whether the kind is punctuation. -/
def isPunctuation : TokenKind → Bool
  | punctuation _ => true
  | _ => false

/-- Whether the kind is a literal. -/
def isLiteral : TokenKind → Bool
  | integer | string | character | symbol => true
  | _ => false

/-- Whether the kind is an assignment operator. -/
def isAssignment : TokenKind → Bool
  | punctuation p => p.isAssignment
  | _ => false

end TokenKind

end ScriptLens
