import Mathlib.Logic.Function.Basic
import Mathlib.Tactic.SplitIfs

/-!
# The table of refresh tokens

`auth-core/src/database.rs` on the table `oidc_tokens`, whose primary key is the subject. A row
holds the refresh token that its sealed box opens to. Times are seconds.
-/

namespace Workflows.AuthCore

structure Row where
  issuer : String
  refreshToken : String
  expiresAt : Option Int
  deriving DecidableEq

abbrev Database := String → Option Row

structure StoredToken where
  issuer : String
  subject : String
  refreshTokenSecret : String
  deriving DecidableEq

structure RefreshTokenInfo where
  refreshTokenSecret : String
  issuer : String
  subject : String

inductive ReadError where
  | noRow
  | expired
  deriving DecidableEq

def readTokenFromDatabase (db : Database) (subject : String) (issuer : Option String) (now : Int) :
    Except ReadError StoredToken :=
  match db subject with
  | none => .error .noRow
  | some row =>
    if issuer.isSome ∧ issuer ≠ some row.issuer then .error .noRow
    else if row.expiresAt.any (· < now) then .error .expired
    else .ok { issuer := row.issuer, subject, refreshTokenSecret := row.refreshToken }

/-- Thirty days. -/
def refreshTokenLifetime : Int := 2592000

/-- The insert replaces a row that stands under the same subject. -/
def writeTokenToDatabase (db : Database) (token : RefreshTokenInfo) (now : Int) : Database :=
  Function.update db token.subject
    (some { issuer := token.issuer, refreshToken := token.refreshTokenSecret,
            expiresAt := some (now + refreshTokenLifetime) })

def deleteTokenFromDatabase (db : Database) (subject : String) : Database :=
  Function.update db subject none

@[simp] theorem deleteTokenFromDatabase_self (db : Database) (subject : String) :
    deleteTokenFromDatabase db subject subject = none :=
  Function.update_self ..

theorem deleteTokenFromDatabase_eq_none {db : Database} {subject other : String}
    (h : db subject = none) : deleteTokenFromDatabase db other subject = none := by
  by_cases hother : subject = other
  · rw [hother, deleteTokenFromDatabase_self]
  · exact (Function.update_of_ne hother ..).trans h

theorem readTokenFromDatabase_eq_ok {db : Database} {subject : String} {issuer : Option String}
    {now : Int} {stored : StoredToken}
    (h : readTokenFromDatabase db subject issuer now = .ok stored) :
    stored.subject = subject ∧
      ∃ row, db subject = some row ∧ row.refreshToken = stored.refreshTokenSecret := by
  unfold readTokenFromDatabase at h
  cases hrow : db subject with
  | none =>
    rw [hrow] at h
    cases h
  | some row =>
    simp only [hrow] at h
    split_ifs at h
    cases h
    exact ⟨rfl, row, rfl, rfl⟩

end Workflows.AuthCore
