/-!
# Tokens

The kinds of tokens of the language, in their fixed order, and the tokens
themselves. Three tables assign a kind to a lexeme: the keywords, the symbols
of one character, and the operators that an equals sign may follow.
-/

namespace TokenStream

/-- The kind of a token. -/
inductive Kind where
  | illegal | eof
  -- names and literals
  | ident | int
  -- operators
  | assign | plus | minus | bang | asterisk | slash | eq | notEq | gt | lt
  -- delimiters
  | comma | semicolon | lparen | rparen | lbrace | rbrace
  -- keywords
  | fnKeyword | letKeyword | returnKeyword | ifKeyword | elseKeyword | trueKeyword | falseKeyword
deriving DecidableEq, Repr

namespace Kind

/-- All kinds in their order. -/
def all : List Kind :=
  [illegal, eof, ident, int, assign, plus, minus, bang, asterisk, slash, eq, notEq, gt, lt,
   comma, semicolon, lparen, rparen, lbrace, rbrace,
   fnKeyword, letKeyword, returnKeyword, ifKeyword, elseKeyword, trueKeyword, falseKeyword]

/-- The name under which a kind is listed. -/
def name : Kind → String
  | illegal => "ILLEGAL" | eof => "EOF" | ident => "IDENT" | int => "INT"
  | assign => "ASSIGN" | plus => "PLUS" | minus => "MINUS" | bang => "BANG"
  | asterisk => "ASTERISK" | slash => "SLASH" | eq => "EQ" | notEq => "NOT_EQ"
  | gt => "GT" | lt => "LT" | comma => "COMMA" | semicolon => "SEMICOLON"
  | lparen => "LPAREN" | rparen => "RPAREN" | lbrace => "LBRACE" | rbrace => "RBRACE"
  | fnKeyword => "FUNCTION" | letKeyword => "LET" | returnKeyword => "RETURN"
  | ifKeyword => "IF" | elseKeyword => "ELSE" | trueKeyword => "TRUE" | falseKeyword => "FALSE"

/-- The place of a kind in the order, counted from one. -/
def number (k : Kind) : Nat := all.idxOf k + 1

/-- The kind of the given name. -/
def ofName? (s : String) : Option Kind := all.find? (·.name = s)

theorem ofName?_name (k : Kind) : ofName? k.name = some k := by cases k <;> decide

theorem name_injective {k l : Kind} (h : k.name = l.name) : k = l := by
  have := congrArg ofName? h
  simpa [ofName?_name] using this

/-- The words that are keywords. -/
def keywords : List (String × Kind) :=
  [("fn", fnKeyword), ("let", letKeyword), ("return", returnKeyword), ("if", ifKeyword),
   ("else", elseKeyword), ("true", trueKeyword), ("false", falseKeyword)]

/-- The symbols of one character that begin no longer one. -/
def symbols : List (Char × Kind) :=
  [('+', plus), ('-', minus), ('*', asterisk), ('/', slash), (';', semicolon), (',', comma),
   ('{', lbrace), ('}', rbrace), ('(', lparen), (')', rparen), ('>', gt), ('<', lt)]

/-- The operators that take an equals sign behind them along: their kinds
without one and with one. -/
def operators : List (Char × Kind × Kind) := [('=', assign, eq), ('!', bang, notEq)]

/-- The kind of a word. -/
def ofWord (word : String) : Kind := (keywords.lookup word).getD ident

end Kind

/-- What a token carries besides its kind. -/
inductive Payload where
  | absent
  | name (text : String)
  | number (value : Int)
deriving DecidableEq, Repr

/-- A token: its kind, its payload (the text of a name, the value of a number,
nothing for all others), and the source text that it was read from. -/
structure Token where
  kind : Kind
  payload : Payload
  raw : String
deriving DecidableEq, Repr

namespace Token

/-- The token at the end of every source. -/
def eof : Token := ⟨.eof, .absent, ""⟩

/-- The token of a run of letters: a keyword, or a name that carries its text. -/
def ofWord (word : String) : Token :=
  let kind := Kind.ofWord word
  ⟨kind, if kind = .ident then .name word else .absent, word⟩

end Token

/-- The largest value of a number token, one below the power `2 ^ 63`. -/
def maxInt : Nat := Nat.pow 2 63 - 1

end TokenStream
