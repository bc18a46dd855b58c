import TransactLint.Text.UpperCase

/-!
# Keywords

The words the grammar dispatches on. Words that matter in one position only, such as `APPLY` or
`GO`, are identifiers.
-/

namespace TransactLint

inductive Keyword where
  | ADD | ALL | ALTER | AND | AS | ASC | BEGIN | BETWEEN | BREAK | BY | CASCADE | CASE | CAST
  | CHECK | CLUSTERED | COLLATE | COMMIT | CONSTRAINT | CONTINUE | CONVERT | CREATE | CROSS | CURSOR
  | DECLARE | DEFAULT | DELETE | DESC | DISTINCT | DROP | ELSE | END | ESCAPE | EXCEPT | EXEC
  | EXECUTE | EXISTS | FETCH | FOR | FOREIGN | FROM | FULL | FUNCTION | GOTO | GROUP | HAVING
  | IDENTITY | IF | IN | INDEX | INNER | INSERT | INTERSECT | INTO | IS | JOIN | KEY | LEFT | LIKE
  | MERGE | NOCHECK | NONCLUSTERED | NOT | NULL | OF | OFF | ON | OPTION | OR | ORDER | OUTER | OVER
  | PERCENT | PRIMARY | PRINT | PROC | PROCEDURE | RAISERROR | REFERENCES | RETURN | RIGHT
  | ROLLBACK | ROWGUIDCOL | SELECT | SET | TABLE | THEN | TOP | TRAN | TRANSACTION | TRIGGER
  | TRUNCATE | UNION | UNIQUE | UPDATE | USE | VALUES | VIEW | WAITFOR | WHEN | WHERE | WHILE | WITH
deriving DecidableEq

namespace Keyword

def spelling : Keyword → String
  | .ADD => "ADD"
  | .ALL => "ALL"
  | .ALTER => "ALTER"
  | .AND => "AND"
  | .AS => "AS"
  | .ASC => "ASC"
  | .BEGIN => "BEGIN"
  | .BETWEEN => "BETWEEN"
  | .BREAK => "BREAK"
  | .BY => "BY"
  | .CASCADE => "CASCADE"
  | .CASE => "CASE"
  | .CAST => "CAST"
  | .CHECK => "CHECK"
  | .CLUSTERED => "CLUSTERED"
  | .COLLATE => "COLLATE"
  | .COMMIT => "COMMIT"
  | .CONSTRAINT => "CONSTRAINT"
  | .CONTINUE => "CONTINUE"
  | .CONVERT => "CONVERT"
  | .CREATE => "CREATE"
  | .CROSS => "CROSS"
  | .CURSOR => "CURSOR"
  | .DECLARE => "DECLARE"
  | .DEFAULT => "DEFAULT"
  | .DELETE => "DELETE"
  | .DESC => "DESC"
  | .DISTINCT => "DISTINCT"
  | .DROP => "DROP"
  | .ELSE => "ELSE"
  | .END => "END"
  | .ESCAPE => "ESCAPE"
  | .EXCEPT => "EXCEPT"
  | .EXEC => "EXEC"
  | .EXECUTE => "EXECUTE"
  | .EXISTS => "EXISTS"
  | .FETCH => "FETCH"
  | .FOR => "FOR"
  | .FOREIGN => "FOREIGN"
  | .FROM => "FROM"
  | .FULL => "FULL"
  | .FUNCTION => "FUNCTION"
  | .GOTO => "GOTO"
  | .GROUP => "GROUP"
  | .HAVING => "HAVING"
  | .IDENTITY => "IDENTITY"
  | .IF => "IF"
  | .IN => "IN"
  | .INDEX => "INDEX"
  | .INNER => "INNER"
  | .INSERT => "INSERT"
  | .INTERSECT => "INTERSECT"
  | .INTO => "INTO"
  | .IS => "IS"
  | .JOIN => "JOIN"
  | .KEY => "KEY"
  | .LEFT => "LEFT"
  | .LIKE => "LIKE"
  | .MERGE => "MERGE"
  | .NOCHECK => "NOCHECK"
  | .NONCLUSTERED => "NONCLUSTERED"
  | .NOT => "NOT"
  | .NULL => "NULL"
  | .OF => "OF"
  | .OFF => "OFF"
  | .ON => "ON"
  | .OPTION => "OPTION"
  | .OR => "OR"
  | .ORDER => "ORDER"
  | .OUTER => "OUTER"
  | .OVER => "OVER"
  | .PERCENT => "PERCENT"
  | .PRIMARY => "PRIMARY"
  | .PRINT => "PRINT"
  | .PROC => "PROC"
  | .PROCEDURE => "PROCEDURE"
  | .RAISERROR => "RAISERROR"
  | .REFERENCES => "REFERENCES"
  | .RETURN => "RETURN"
  | .RIGHT => "RIGHT"
  | .ROLLBACK => "ROLLBACK"
  | .ROWGUIDCOL => "ROWGUIDCOL"
  | .SELECT => "SELECT"
  | .SET => "SET"
  | .TABLE => "TABLE"
  | .THEN => "THEN"
  | .TOP => "TOP"
  | .TRAN => "TRAN"
  | .TRANSACTION => "TRANSACTION"
  | .TRIGGER => "TRIGGER"
  | .TRUNCATE => "TRUNCATE"
  | .UNION => "UNION"
  | .UNIQUE => "UNIQUE"
  | .UPDATE => "UPDATE"
  | .USE => "USE"
  | .VALUES => "VALUES"
  | .VIEW => "VIEW"
  | .WAITFOR => "WAITFOR"
  | .WHEN => "WHEN"
  | .WHERE => "WHERE"
  | .WHILE => "WHILE"
  | .WITH => "WITH"

/-- Keywords known by the full upper-case form of a word. -/
def folded : List Keyword :=
  [.ADD, .ALL, .ALTER, .AND, .AS, .ASC, .BEGIN, .BETWEEN, .BY, .CASCADE, .CASE, .CAST, .CHECK,
   .CLUSTERED, .COLLATE, .COMMIT, .CONSTRAINT, .CONTINUE, .CONVERT, .CREATE, .CROSS, .CURSOR,
   .DECLARE, .DEFAULT, .DELETE, .DESC, .DISTINCT, .DROP, .ELSE, .END, .ESCAPE, .EXCEPT, .EXEC,
   .EXECUTE, .EXISTS, .FETCH, .FOR, .FOREIGN, .FROM, .FULL, .FUNCTION, .GROUP, .HAVING, .IDENTITY,
   .IF, .IN, .INDEX, .INNER, .INSERT, .INTERSECT, .INTO, .IS, .JOIN, .KEY, .LEFT, .LIKE, .MERGE,
   .NOT, .NULL, .OF, .OFF, .ON, .OPTION, .OR, .ORDER, .OUTER, .OVER, .PERCENT, .PRIMARY, .PRINT,
   .PROCEDURE, .RAISERROR, .REFERENCES, .RETURN, .RIGHT, .ROLLBACK, .SELECT, .SET, .TABLE, .THEN,
   .TOP, .TRANSACTION, .TRIGGER, .TRUNCATE, .UNION, .UNIQUE, .UPDATE, .USE, .VALUES, .VIEW, .WHEN,
   .WHERE, .WHILE, .WITH]

/-- Keywords known by the ASCII upper-case form of a word. -/
def plain : List Keyword :=
  [.BREAK, .GOTO, .NOCHECK, .NONCLUSTERED, .PROC, .ROWGUIDCOL, .TRAN, .WAITFOR]

/-- The keyword that a bare word spells. -/
def ofWord? (word : List Char) : Option Keyword :=
  let folds := (Text.upperWord? word).bind fun form =>
    folded.find? fun k => k.spelling.toList == form
  match folds with
  | some k => some k
  | none => plain.find? fun k => k.spelling.toList == Text.upperAscii word

/-- The name of a keyword in messages: its first letter is a capital. -/
def name : Keyword → String
  | .NONCLUSTERED => "NonClustered"
  | k =>
    match k.spelling.toList with
    | [] => ""
    | c :: cs => String.ofList (c :: cs.map Char.toLower)

end Keyword

end TransactLint
