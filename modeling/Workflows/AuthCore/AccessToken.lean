import Workflows.Foundations.Base64

/-!
# The claims of an access token

The payload of a token is its second part, unpadded base64 with the letters for URLs. The gateway
reads the subject and the expiry from it and does not check the signature.
-/

namespace Workflows.AuthCore

/-- What `serde_json` reads from the text of a payload. -/
structure RawClaims where
  sub : String
  exp : Option Int
  deriving DecidableEq

structure AccessTokenClaims where
  subject : String
  expiresAt : Option Int
  deriving DecidableEq

/-- The second of the parts that dots separate. -/
def part (accessToken : String) : Option (List Char) :=
  (accessToken.toList.splitOn '.')[1]?

def payload (accessToken : String) : Option (List UInt8) :=
  (part accessToken).bind (Base64.urlSafe.decode true)

/-- A timestamp that is out of range counts as none. -/
def claimsFromAccessToken (fromSlice : List UInt8 → Option RawClaims)
    (fromTimestamp : Int → Option Int) (accessToken : String) : Option AccessTokenClaims :=
  (payload accessToken).bind fun decoded => (fromSlice decoded).map fun raw =>
    { subject := raw.sub, expiresAt := raw.exp.bind fromTimestamp }

theorem part_append {header : List Char} (hheader : '.' ∉ header) {middle : List Char}
    (hmiddle : '.' ∉ middle) (signature : List Char) :
    part (String.ofList (header ++ '.' :: middle ++ '.' :: signature)) = some middle := by
  rw [part, String.toList_ofList, List.append_assoc, List.cons_append]
  rw [List.splitOn_append_cons_self_of_not_mem hheader, List.splitOn_append_cons_self_of_not_mem hmiddle]
  rfl

theorem payload_encode {header : List Char} (hheader : '.' ∉ header) (bytes : List UInt8)
    (signature : List Char) :
    payload (String.ofList
      (header ++ '.' :: Base64.urlSafe.encode bytes ++ '.' :: signature)) = some bytes := by
  have hdot : ∀ d, Base64.urlSafe.letter d ≠ '.' := by decide +kernel
  have hmiddle : '.' ∉ Base64.urlSafe.encode bytes := by
    intro hmem
    obtain ⟨d, -, hd⟩ := List.mem_map.mp hmem
    exact hdot d hd
  rw [payload, part_append hheader hmiddle]
  exact Base64.urlSafe.decode_encode true bytes

end Workflows.AuthCore
