import TableAccess.Proofs.Sql.Identifier
import TableAccess.Sqlite.Engine

/-!
# Selecting whole tables of stores

The statement that is sent for a whole table is read as the selection of exactly that table,
whatever stands in its name.  So it gives what the name finds in the store, and changes neither the
store nor its file.
-/

namespace TableAccess.Sqlite

/-! ### The statement -/

theorem tokensWithin_nil (fuel : Nat) : tokensWithin fuel [] = [] := by
  cases fuel <;> rfl

theorem tokensWithin_cons {c : Char} (hc : isGap c = false) (fuel : Nat) (r : List Char) :
    tokensWithin (fuel + 1) (c :: r) =
      (firstToken c r).1 :: tokensWithin fuel (firstToken c r).2 := by
  rw [tokensWithin, List.dropWhile_cons, hc]
  rfl

/-- A quoted name is one token up to its last quote. -/
theorem firstToken_quoted (name : List Char) : ∃ written,
    firstToken '"' (Sql.doubled '"' name ++ ['"']) = (.name name written, []) := by
  have hscan : Sql.scanIdentifier '"' (Sql.quoteIdentifier '"' name ++ []) = some (name, []) :=
    Sql.scanIdentifier_quoteIdentifier nofun
  rw [List.append_nil, Sql.quoteIdentifier] at hscan
  rw [firstToken, hscan]
  exact ⟨_, rfl⟩

/-- The words of the statement end at blanks, so what they are does not depend on the table. -/
theorem tokens_words (fuel : Nat) (s : List Char) :
    tokensWithin (fuel + 4) ("SELECT * FROM ".toList ++ s) =
      .word "SELECT".toList :: .sign '*' :: .word "FROM".toList :: tokensWithin (fuel + 1) s := by
  have hwords : "SELECT * FROM ".toList ++ s =
      'S' :: ("ELECT".toList ++ ' ' :: '*' :: ' ' :: 'F' :: ("ROM".toList ++ ' ' :: s)) := by simp
  rw [hwords]
  rfl

theorem toList_selectAllFrom (quote : Char) (table : String) :
    (Sql.selectAllFrom quote table).toList =
      "SELECT * FROM ".toList ++ Sql.quoteIdentifier quote table.toList := by
  rw [Sql.selectAllFrom, String.toList_append]
  exact congrArg _ String.toList_ofList

theorem tokens_selectAllFrom (table : String) : ∃ written,
    tokens (Sql.selectAllFrom '"' table).toList =
      [.word "SELECT".toList, .sign '*', .word "FROM".toList, .name table.toList written] := by
  obtain ⟨written, htoken⟩ := firstToken_quoted table.toList
  refine ⟨written, ?_⟩
  have hlength : ("SELECT * FROM ".toList ++ Sql.quoteIdentifier '"' table.toList).length =
      (Sql.doubled '"' table.toList).length + 12 + 4 := by
    simp [Sql.quoteIdentifier]
  rw [tokens, toList_selectAllFrom, hlength, tokens_words, Sql.quoteIdentifier,
    tokensWithin_cons (by decide), htoken, tokensWithin_nil]

theorem read_selectAllFrom (table : String) :
    Statement.read (Sql.selectAllFrom '"' table) = .ok (.all table) := by
  obtain ⟨written, htokens⟩ := tokens_selectAllFrom table
  have hselect : (Token.word "SELECT".toList).isKeyword "SELECT" = true := by decide
  have hfrom : (Token.word "FROM".toList).isKeyword "FROM" = true := by decide
  rw [Statement.read, htokens, Statement.ofTokens, if_pos hselect, Statement.selection,
    Statement.fromTable, if_pos hfrom]
  show Except.ok (Statement.all (String.ofList table.toList)) = _
  rw [String.ofList_toList]

/-! ### What it selects -/

variable {files : FileTree} {path : String} {s : Session} {store : Store}

theorem execute_selectAllFrom (store : Store) (table : String) (parameters : List Value) :
    execute store (Sql.selectAllFrom '"' table) parameters = (selectAll store table, store) := by
  rw [execute, read_selectAllFrom]

theorem writeBack_self (files : FileTree) (path : String) (store : Store) :
    writeBack files path store store = files := if_pos rfl

/-- A session stays with the store that it finds, and no file changes. -/
theorem run_selectAllFrom (h : s.current files path = .ok store) (table : String) :
    run files path s (Sql.selectAllFrom '"' table) [] =
      (selectAll store table, ⟨store⟩, files) := by
  rw [run, h]
  simp only [execute_selectAllFrom, writeBack_self]

theorem files_run_selectAllFrom (files : FileTree) (path : String) (s : Session)
    (table : String) : (run files path s (Sql.selectAllFrom '"' table) []).2.2 = files := by
  cases h : s.current files path with
  | error e => rw [run, h]
  | ok store => rw [run_selectAllFrom h]

end TableAccess.Sqlite
