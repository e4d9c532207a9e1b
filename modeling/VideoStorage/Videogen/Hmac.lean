import VideoStorage.Foundation.Int64
import VideoStorage.Videogen.Types

/-!
# Signatures

The message of a signature joins its parts by newlines, and the parts that come
before a free one have none in them: so the message says what its parts are
(`signatureMessage_inj`).
-/

namespace VideoStorage.Videogen

open Foundation

structure HmacKey where
  id : String
  bytes : Bytes
  deriving DecidableEq, Repr

/-- Keys by their id. -/
structure HmacKeyRegistry where
  keys : List HmacKey
  distinct : (keys.map HmacKey.id).Nodup

def HmacKeyRegistry.get (registry : HmacKeyRegistry) (keyId : String) :
    Option HmacKey :=
  registry.keys.find? (·.id == keyId)

inductive HmacError
  | emptyRegistry
  | invalidKeyEntry
  | emptyKeyId
  | emptyKey
  | duplicateKeyId (id : String)
  | unknownKeyId
  | timestampOutsideSkew
  | invalidSignature
  deriving DecidableEq, Repr

def HmacError.text : HmacError → String
  | .emptyRegistry => "hmac key registry is empty"
  | .invalidKeyEntry => "invalid hmac key entry"
  | .emptyKeyId => "hmac key id is empty"
  | .emptyKey => "hmac key must not be empty"
  | .duplicateKeyId id => "duplicate hmac key id: " ++ id
  | .unknownKeyId => "unknown hmac key id"
  | .timestampOutsideSkew => "timestamp is outside allowed skew"
  | .invalidSignature => "signature is invalid"

def lines (parts : List (List Char)) : String :=
  String.ofList (['\n'].intercalate parts)

def signatureMessage (method path : String) (timestamp : Int64)
    (bodyHashHex : String) : String :=
  lines [method.toList, path.toList, (decimal timestamp).toList,
    bodyHashHex.toList]

/-- `sign_moderation_request`: the timestamp comes first. -/
def signModerationRequest (crates : Crates) (secret : Bytes)
    (method path : String) (timestamp : Int64) (body : Bytes) : String :=
  crates.hexEncode (crates.hmacSha256 secret (utf8 (lines [
    (decimal timestamp).toList, method.toList, path.toList,
    (crates.sha256Hex body).toList])))

def verifyCompletionSignature (crates : Crates) (registry : HmacKeyRegistry)
    (keyId method path : String) (timestamp : Int64)
    (bodyHashHex signatureHex : String) (nowTimestamp allowedSkewSecs : Int64) :
    Except HmacError Unit :=
  match registry.get keyId with
  | none => .error .unknownKeyId
  | some key =>
      if (max allowedSkewSecs 0).toUInt64 < absDiff nowTimestamp timestamp then
        .error .timestampOutsideSkew
      else
        match crates.hexDecode signatureHex with
        | none => .error .invalidSignature
        | some signature =>
            if crates.hmacSha256 key.bytes (utf8
                (signatureMessage method path timestamp bodyHashHex)) =
                signature then
              .ok ()
            else .error .invalidSignature

/-! ## What a verified signature says -/

/-- The signature is the key's MAC of the message, and not out of date. -/
structure Verified (crates : Crates) (registry : HmacKeyRegistry)
    (keyId method path : String) (timestamp : Int64)
    (bodyHashHex signatureHex : String) (now skew : Int64) : Prop where
  fresh : ((now.toInt - timestamp.toInt).natAbs : ℤ) ≤ max skew.toInt 0
  mac : ∃ key, registry.get keyId = some key ∧
    crates.hexDecode signatureHex = some (crates.hmacSha256 key.bytes
      (utf8 (signatureMessage method path timestamp bodyHashHex)))

variable {crates : Crates} {registry : HmacKeyRegistry}
  {keyId method path bodyHashHex signatureHex : String}
  {timestamp now skew : Int64}

theorem verifyCompletionSignature_ok {u : Unit} (h : verifyCompletionSignature
    crates registry keyId method path timestamp bodyHashHex signatureHex now
    skew = .ok u) :
    Verified crates registry keyId method path timestamp bodyHashHex
      signatureHex now skew := by
  unfold verifyCompletionSignature at h
  split at h
  · cases h
  · rename_i key hkey
    split_ifs at h with hskew
    split at h
    · cases h
    · rename_i signature hsig
      split_ifs at h with hmac
      refine ⟨?_, key, hkey, hmac ▸ hsig⟩
      have hle : (absDiff now timestamp).toNat ≤
          (max skew 0).toUInt64.toNat := by
        rw [UInt64.lt_iff_toNat_lt] at hskew
        omega
      rw [absDiff_toNat, toUInt64_max_zero] at hle
      omega

theorem Verified.accepted (h : Verified crates registry keyId method path
    timestamp bodyHashHex signatureHex now skew) :
    verifyCompletionSignature crates registry keyId method path timestamp
      bodyHashHex signatureHex now skew = .ok () := by
  obtain ⟨hfresh, key, hkey, hmac⟩ := h
  have hskew : ¬ (max skew 0).toUInt64 < absDiff now timestamp := by
    rw [UInt64.lt_iff_toNat_lt, absDiff_toNat, toUInt64_max_zero]
    omega
  unfold verifyCompletionSignature
  simp only [hkey, hmac, if_neg hskew, if_pos]

/-- Under a known key, the timestamp alone decides whether it is out of date. -/
theorem verifyCompletionSignature_outside {key : HmacKey}
    (hkey : registry.get keyId = some key) :
    verifyCompletionSignature crates registry keyId method path timestamp
        bodyHashHex signatureHex now skew = .error .timestampOutsideSkew ↔
      max skew.toInt 0 < (now.toInt - timestamp.toInt).natAbs := by
  have hlt : (max skew 0).toUInt64 < absDiff now timestamp ↔
      max skew.toInt 0 < (now.toInt - timestamp.toInt).natAbs := by
    rw [UInt64.lt_iff_toNat_lt, absDiff_toNat, toUInt64_max_zero]
    omega
  unfold verifyCompletionSignature
  rw [hkey, ← hlt]
  by_cases hskew : (max skew 0).toUInt64 < absDiff now timestamp
  · simp [hskew]
  · simp only [hskew, if_false, iff_false]
    split
    · nofun
    · split_ifs <;> nofun

theorem HmacKeyRegistry.id_of_get {key : HmacKey}
    (h : registry.get keyId = some key) : key ∈ registry.keys ∧ key.id = keyId :=
  ⟨List.mem_of_find?_eq_some h, by simpa using List.find?_some h⟩

/-! ## The message determines its parts -/

/-- What comes before the first newline. -/
theorem split_newline {as bs as' bs' : List Char} (h : '\n' ∉ as)
    (h' : '\n' ∉ as') (heq : as ++ '\n' :: bs = as' ++ '\n' :: bs') :
    as = as' ∧ bs = bs' := by
  induction as generalizing as' with
  | nil =>
      cases as' with
      | nil => exact ⟨rfl, (List.cons.inj heq).2⟩
      | cons a as' =>
          obtain ⟨rfl, -⟩ := List.cons.inj heq
          exact absurd List.mem_cons_self h'
  | cons a as ih =>
      cases as' with
      | nil =>
          obtain ⟨rfl, -⟩ := List.cons.inj heq
          exact absurd List.mem_cons_self h
      | cons a' as' =>
          obtain ⟨rfl, hrest⟩ := List.cons.inj heq
          obtain ⟨rfl, rfl⟩ := ih (fun hm => h (List.mem_cons_of_mem _ hm))
            (fun hm => h' (List.mem_cons_of_mem _ hm)) hrest
          exact ⟨rfl, rfl⟩

theorem signatureMessage_toList : (signatureMessage method path timestamp
    bodyHashHex).toList = method.toList ++ '\n' :: (path.toList ++ '\n' ::
      (intText timestamp.toInt ++ '\n' :: bodyHashHex.toList)) := by
  unfold signatureMessage lines
  rw [String.toList_ofList, decimal_toList]
  simp [List.intercalate, List.intersperse]

/-- **The message is injective** in all its parts, for a method and a path
without newlines. -/
theorem signatureMessage_inj {method' path' bodyHashHex' : String}
    {timestamp' : Int64} (hmethod : '\n' ∉ method.toList)
    (hmethod' : '\n' ∉ method'.toList) (hpath : '\n' ∉ path.toList)
    (hpath' : '\n' ∉ path'.toList)
    (h : signatureMessage method path timestamp bodyHashHex =
      signatureMessage method' path' timestamp' bodyHashHex') :
    method = method' ∧ path = path' ∧ timestamp = timestamp' ∧
      bodyHashHex = bodyHashHex' := by
  have hlist := congrArg String.toList h
  rw [signatureMessage_toList, signatureMessage_toList] at hlist
  obtain ⟨hm, hlist⟩ := split_newline hmethod hmethod' hlist
  obtain ⟨hp, hlist⟩ := split_newline hpath hpath' hlist
  have hdigits : ∀ n : ℤ, '\n' ∉ intText n :=
    not_mem_intText (by decide) (by decide)
  obtain ⟨ht, hb⟩ := split_newline (hdigits _) (hdigits _) hlist
  exact ⟨String.toList_inj.mp hm, String.toList_inj.mp hp,
    Int64.toInt_inj.mp (intText_injective ht), String.toList_inj.mp hb⟩

end VideoStorage.Videogen
