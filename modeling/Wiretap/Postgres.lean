import Wiretap.Text.Decimal
/-!
# PostgreSQL data sources

A data source is known by its URL and its user, and reached by a connection string of keys and
values.  The password stands in that string alone, and only where it is not empty.
-/

namespace Wiretap

/-- A PostgreSQL data source. -/
structure Postgres where
  connectionString : String
  url : String
  user : String
  deriving DecidableEq, Repr, Inhabited

namespace Postgres

/-- The data source with the given parameters. -/
def of (host : String) (port : UInt16) (user database : String) (password : Option String) :
    Postgres where
  connectionString :=
    let secret := match password.filter (!·.isEmpty) with
      | some password => s!" password={password}"
      | none => ""
    s!"host={host} port={port} user={user}{secret} dbname={database}"
  url := s!"postgresql://{host}:{port}/{database}"
  user := user

/-- The data source that variables describe.  There is none without a user, or where the port is
no port. -/
def ofVariables? (lookup : String → Option String) : Option Postgres := do
  let user ← lookup "PGUSER" <|> lookup "USER"
  let port ← match lookup "PGPORT" with
    | some port => Text.uint16? port.toList
    | none => some 5432
  return of ((lookup "PGHOST").getD "localhost") port user ((lookup "PGDATABASE").getD user)
    (lookup "PGPASSWORD")

end Postgres

end Wiretap
