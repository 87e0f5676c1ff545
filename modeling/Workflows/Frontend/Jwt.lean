import Workflows.AuthCore.AccessToken
import Workflows.Foundations.JsonText
import Workflows.Foundations.Utf8

/-!
# Reading a token in the browser

`parseJwt` reads the payload of a token with `atob` and `decodeURIComponent`, and the gateway
with a strict decoder. Where the gateway reads bytes, the browser reads the text that they encode.
-/

namespace Workflows.Frontend

open AuthCore

/-- Each of the two letters for URLs is replaced. -/
def toBase64 (c : Char) : Char :=
  if c = '-' then '+' else if c = '_' then '/' else c

/-- `"%" + ("00" + c.charCodeAt(0).toString(16)).slice(-2)` -/
def percentEncoded (b : UInt8) : List Char :=
  ['%', Nat.digitChar (b.toNat / 16), Nat.digitChar (b.toNat % 16)]

def jsonPayload (token : String) : Option (List Char) :=
  (part token).bind fun base64Url => (Base64.atob (base64Url.map toBase64)).bind fun bytes =>
    Json.percentDecode none (bytes.flatMap percentEncoded)

def parseJwt (format : Json.NumberFormat) (limit : Nat) (token : String) : Option Json :=
  (jsonPayload token).bind (Json.parse format limit)

theorem hexDigit_digitChar (n : Fin 16) : Json.hexDigit (Nat.digitChar n) = some n.val := by
  revert n
  decide +kernel

theorem percentDecode_percentEncoded (state : Option Utf8.Pending) (bytes : List UInt8) :
    Json.percentDecode state (bytes.flatMap percentEncoded) = Utf8.decodeStrict state bytes := by
  induction bytes generalizing state with
  | nil => cases state <;> rfl
  | cons b bytes ih =>
    have hb := b.toNat_lt
    have hhigh := hexDigit_digitChar ⟨b.toNat / 16, by omega⟩
    have hlow := hexDigit_digitChar ⟨b.toNat % 16, by omega⟩
    have hbyte : 16 * (b.toNat / 16) + b.toNat % 16 = b.toNat := Nat.div_add_mod ..
    rw [List.flatMap_cons, percentEncoded, List.cons_append, List.cons_append, List.singleton_append,
      Json.percentDecode, if_pos rfl, Utf8.decodeStrict_cons]
    simp only [hhigh, hlow, Option.bind_eq_bind, Option.bind_some, hbyte, ih]

theorem standard_letter (d : Base64.Digit) :
    toBase64 (Base64.urlSafe.letter d) = Base64.standard.letter d := by
  revert d
  decide +kernel

/-- `atob` takes what the strict decoder takes, and for the same bytes. -/
theorem atob_of_payload {base64Url : List Char} {bytes : List UInt8}
    (h : Base64.urlSafe.decode true base64Url = some bytes) :
    Base64.atob (base64Url.map toBase64) = some bytes := by
  obtain ⟨ds, hds, hbytes⟩ := Option.bind_eq_some_iff.mp h
  obtain rfl := Base64.urlSafe.letters_of_mapM_digit hds
  have hletters : (ds.map Base64.urlSafe.letter).map toBase64 = ds.map Base64.standard.letter := by
    rw [List.map_map]
    exact List.map_congr_left fun d _ => standard_letter d
  rw [hletters, Base64.atob_letters]
  exact Base64.bytes_forgiving hbytes

/-- The browser reads a payload that the gateway decodes as its text, or not at all where it is not
UTF-8. -/
theorem parseJwt_of_payload (format : Json.NumberFormat) (limit : Nat) {token : String}
    {bytes : List UInt8} (h : payload token = some bytes) :
    parseJwt format limit token = (Utf8.fromUtf8 bytes).bind (Json.parse format limit) := by
  obtain ⟨base64Url, hpart, hdecode⟩ := Option.bind_eq_some_iff.mp h
  rw [parseJwt, jsonPayload, hpart, Option.bind_some, atob_of_payload hdecode, Option.bind_some,
    percentDecode_percentEncoded]
  rfl

theorem parseJwt_of_payload_example :
    ∃ bytes, payload "e30.eyJzdWIiOiJ1bGlkMSJ9.s" = some bytes ∧
      parseJwt .verbatim 1 "e30.eyJzdWIiOiJ1bGlkMSJ9.s" =
        (Utf8.fromUtf8 bytes).bind (Json.parse .verbatim 1) := by
  have hsome : (payload "e30.eyJzdWIiOiJ1bGlkMSJ9.s").isSome := by decide +kernel
  obtain ⟨bytes, hbytes⟩ := Option.isSome_iff_exists.mp hsome
  exact ⟨bytes, hbytes, parseJwt_of_payload .verbatim 1 hbytes⟩

def jwt (header signature : List Char) (claims : Json) : String :=
  String.ofList (header ++
    '.' :: Base64.urlSafe.encode (claims.text.flatMap String.utf8EncodeChar) ++ '.' :: signature)

/-- Claims are read back from a token, whatever its header and signature are. -/
theorem parseJwt_jwt {format : Json.NumberFormat} {limit : Nat} {header : List Char} {claims : Json}
    (hheader : '.' ∉ header) (hclaims : claims.Canonical format.IsNumber)
    (hnesting : claims.nesting ≤ limit) (signature : List Char) :
    payload (jwt header signature claims) = some (claims.text.flatMap String.utf8EncodeChar) ∧
      parseJwt format limit (jwt header signature claims) = some claims := by
  have hpayload := payload_encode hheader (claims.text.flatMap String.utf8EncodeChar) signature
  refine ⟨hpayload, ?_⟩
  have hparse := parseJwt_of_payload format limit hpayload
  rw [Utf8.fromUtf8_encode, Option.bind_some, Json.parse_text hclaims limit] at hparse
  rw [jwt, hparse, if_pos hnesting]

def exampleClaims : Json := .object [("sub", .string "ulid1")]

theorem parseJwt_jwt_example :
    payload (jwt ['e'] ['s'] exampleClaims) =
        some (exampleClaims.text.flatMap String.utf8EncodeChar) ∧
      parseJwt .verbatim 1 (jwt ['e'] ['s'] exampleClaims) = some exampleClaims := by
  have hclaims : exampleClaims.Canonical Json.NumberFormat.verbatim.IsNumber := by
    refine .object (List.pairwise_singleton ..) fun e he => ?_
    obtain rfl := List.mem_singleton.mp he
    exact .string "ulid1"
  exact parseJwt_jwt (by decide) hclaims (Nat.le_refl _) ['s']

end Workflows.Frontend
