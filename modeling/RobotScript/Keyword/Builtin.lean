import RobotScript.Keyword.Category

/-!
# The standard keywords

Models of `BuiltinStrings` with its four lists, and of the names of ids. The spellings are those
that scripts are written with, each with the name under which a parser refers to its id. The id of a
keyword is its place in its category, counted from the base of the category.
-/

namespace RobotScript.Keyword

/-- Words of the language and the names of their ids. -/
def languageKeywords : List (String × String) :=
  [ ("IF", "if"), ("ELSE", "else"), ("WHILE", "while"), ("DO", "do"), ("FOR", "for"),
    ("BREAK", "break"), ("CONTINUE", "continue"), ("SWITCH", "switch"), ("CASE", "case"),
    ("DEFAULT", "default"), ("TRY", "try"), ("THROW", "throw"), ("CATCH", "catch"),
    ("FINALLY", "finally"), ("TXT_AND", "and"), ("TXT_OR", "or"), ("TXT_NOT", "not"),
    ("RETURN", "return"), ("CLASS", "class"), ("EXTENDS", "extends"),
    ("SYNCHRONIZED", "synchronized"), ("NEW", "new"), ("PUBLIC", "public"), ("EXTERN", "extern"),
    ("FINAL", "final"), ("STATIC", "static"), ("PROTECTED", "protected"), ("PRIVATE", "private"),
    ("REPEAT", "repeat"), ("DEBUGDD", "STARTDEBUGDD") ]

/-- Types in declarations and the names of their ids. -/
def declarationKeywords : List (String × String) :=
  [ ("INT", "int"), ("FLOAT", "float"), ("BOOLEAN", "boolean"), ("STRING", "string"),
    ("VOID", "void"), ("BOOL", "bool") ]

/-- Words for values and the names of their ids. -/
def valueKeywords : List (String × String) :=
  [ ("TRUE", "true"), ("FALSE", "false"), ("NULL", "null"), ("NAN", "nan") ]

/-- Operators and the names of their ids. -/
def operatorKeywords : List (String × String) :=
  [ ("OPEN_PAR", "("), ("CLOSE_PAR", ")"), ("OPEN_BLOCK", "\x7b"), ("CLOSE_BLOCK", "\x7d"),
    ("SEMICOLON", ";"), ("COMMA", ","), ("ELLIPSIS", "..."), ("DOT", "."), ("OPEN_BRACKET", "["),
    ("CLOSE_BRACKET", "]"), ("COLON", ":"), ("QUESTION", "?"), ("ADD", "+"), ("SUB", "-"),
    ("MUL", "*"), ("DIV", "/"), ("ASSIGN", "="), ("ASSIGN_ADD", "+="), ("ASSIGN_SUB", "-="),
    ("ASSIGN_MUL", "*="), ("ASSIGN_DIV", "/="), ("ASSIGN_OR", "|="), ("ASSIGN_AND", "&="),
    ("ASSIGN_XOR", "^="), ("ASSIGN_SHL", "<<="), ("ASSIGN_SHR", ">>>="), ("ASSIGN_ASR", ">>="),
    ("SHL", "<<"), ("SHR", ">>>"), ("ASR", ">>"), ("INC", "++"), ("DEC", "--"), ("LT", "<"),
    ("GT", ">"), ("LE", "<="), ("GE", ">="), ("EQ", "=="), ("NE", "!="), ("BIT_AND", "&"),
    ("BIT_XOR", "^"), ("BIT_OR", "|"), ("LOG_AND", "&&"), ("LOG_OR", "||"), ("LOG_NOT", "!"),
    ("BIT_NOT", "~"), ("MODULO", "%"), ("POWER", "**"), ("ASSIGN_MODULO", "%=") ]

/-- The standard keywords of a category. -/
def standardKeywords : Category → List (String × String)
  | .language => languageKeywords
  | .declaration => declarationKeywords
  | .value => valueKeywords
  | .operator => operatorKeywords

/-- The standard spelling of an id; the empty text if it has none. -/
def standard : Spellings := Spellings.ofLists fun c => (standardKeywords c).map Prod.snd

/-- The names of the ids of a category, with the ids. -/
def standardIds (c : Category) : List (String × Int) :=
  (standardKeywords c).mapIdx fun i keyword => (keyword.1, c.base + i)

end RobotScript.Keyword
