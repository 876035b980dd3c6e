import Wiretap.Table
/-!
# A simulated database

An executor that answers from a script: how many rows a query has, how many rows a statement
touches, and which texts fail.  Where the script is silent a query has no rows and a statement
touches one.  It keeps a list of all that it was asked to run.

A data source hands out copies of one executor, or always fails.
-/

namespace Wiretap.Simulated

/-- A text failed. -/
structure SqlError where
  sql : String
  deriving DecidableEq, Repr, Inhabited

/-- The words of the error. -/
def SqlError.message (e : SqlError) : String := s!"mock failure executing '{e.sql}'"

/-- An executor that answers from a script. -/
structure Executor where
  rows : Table String Nat := .empty
  counts : Table String UInt64 := .empty
  failing : List String := []
  /-- The texts it was asked to run, oldest first. -/
  executed : List String := []
  deriving Inhabited

namespace Executor

/-- Runs a text that answers with `answer` where it does not fail. -/
def run (sql : String) (answer : Executor → α) (e : Executor) : Except SqlError α × Executor :=
  let e := { e with executed := e.executed ++ [sql] }
  if sql ∈ e.failing then (.error ⟨sql⟩, e) else (.ok (answer e), e)

/-- Runs a query; the rows are numbered. -/
def query (sql : String) (e : Executor) : Except SqlError (List Nat) × Executor :=
  run sql (fun e => List.range ((e.rows.get? sql).getD 0)) e

/-- Runs a statement. -/
def execute (sql : String) (e : Executor) : Except SqlError UInt64 × Executor :=
  run sql (fun e => (e.counts.get? sql).getD 1) e

/-- Runs statements in turn up to the first that fails. -/
def executeBatch (batch : List String) (e : Executor) :
    Except SqlError (List UInt64) × Executor :=
  match batch with
  | [] => (.ok [], e)
  | sql :: rest =>
    match e.execute sql with
    | (.error error, e) => (.error error, e)
    | (.ok count, e) =>
      match e.executeBatch rest with
      | (.error error, e) => (.error error, e)
      | (.ok counts, e) => (.ok (count :: counts), e)

/-- Makes a driver call, which may run a statement first and then ends as it is told.  An error of
that statement becomes the error of the call. -/
def driverCall (inner : Option String) (outcome : Except String α) (e : Executor) :
    Except String α × Executor :=
  match inner with
  | none => (outcome, e)
  | some sql =>
    match e.execute sql with
    | (.ok _, e) => (outcome, e)
    | (.error error, e) => (.error error.message, e)

end Executor

/-- A source of executors. -/
structure DataSource where
  url : String
  user : Option String := none
  /-- What every connection is a copy of. -/
  template : Executor := {}
  /-- Whether connecting always fails. -/
  fails : Bool := false
  /-- How often it was connected to. -/
  connects : Nat := 0
  deriving Inhabited

/-- Connects to a data source. -/
def DataSource.connect (d : DataSource) : Except SqlError Executor × DataSource :=
  let d := { d with connects := d.connects + 1 }
  if d.fails then (.error ⟨"connect"⟩, d) else (.ok d.template, d)

end Wiretap.Simulated
