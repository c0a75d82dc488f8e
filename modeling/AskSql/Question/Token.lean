/-!
# Tokens of a question

A token is a piece of a question with the part that it can play in it.
-/

namespace AskSql

/-- The part that a piece of a question can play. -/
inductive TokenKind where
  | command | aggregation | groupWord | orderWord | sortDirection | limitWord | filterWord
  | joinWord | joinKind | subqueryWord | namedSubqueryWord | windowWord | distinctWord | writeWord
  | comparison | logical
  | number | quoted | date | temporal | null | boolean
  | identifier | noun | verb | adverb | determiner | preposition
  | punctuation | unknown
  deriving DecidableEq, Repr

namespace TokenKind

/-- The words that say what is to be done. -/
def isKeyword : TokenKind → Bool
  | command | aggregation | groupWord | orderWord | sortDirection | limitWord | filterWord
  | joinWord | joinKind | subqueryWord | namedSubqueryWord | windowWord | distinctWord
  | writeWord => true
  | _ => false

/-- The words that begin a new part of the question. -/
def opensClause : TokenKind → Bool
  | command | groupWord | orderWord | limitWord | filterWord | joinWord | namedSubqueryWord
  | windowWord => true
  | _ => false

/-- Values. -/
def isLiteral : TokenKind → Bool
  | number | quoted | date | temporal | null | boolean => true
  | _ => false

/-- Words that may name a part of the schema. -/
def isNameLike : TokenKind → Bool
  | identifier | noun | verb | adverb | unknown => true
  | _ => false

end TokenKind

/-- A piece of a question. -/
structure Token where
  /-- The piece as it is written. -/
  text : String
  kind : TokenKind
  /-- Where it begins, counted in bytes. -/
  position : Nat
  /-- How long it is, counted in bytes. -/
  length : Nat
  /-- The piece in small letters, with abbreviations written out and without quotation marks. -/
  normalized : String
  /-- How sure it is that the piece plays this part. -/
  confidence : Float
  deriving Repr

namespace Token

/-- Where the token ends. -/
def stop (t : Token) : Nat :=
  t.position + t.length

/-- The token in its normal form is this text. -/
def is (t : Token) (normalized : String) : Bool :=
  t.normalized == normalized

end Token

end AskSql
