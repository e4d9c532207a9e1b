import VideoStorage.Mirror.Duplicates
import VideoStorage.Videogen.Hmac

/-!
# The freshness window

`authorize` compares the clock with a timestamp by a subtraction and an absolute
value, which may leave the range; `verify_completion_signature` takes their
unsigned distance, which does not.
-/

namespace VideoStorage.Mirror

open Foundation

/-- `(now - ts).abs() > 300`, negated. -/
def inWindow (mode : Overflow) (now ts : Int64) : Option Bool :=
  (mode.sub now ts).bind fun difference =>
    (mode.abs difference).map fun distance => !decide (300 < distance)

section Authorize

variable (crates : HttpCrates) (secret : String)

/-- From the bytes of the signature on. -/
def checkSignature (request : Request) (tsStr sigHex : String) : Except ℕ Unit := do
  let sigBytes ← okOr (crates.hexDecode sigHex) badRequest
  let message := signedMessage request.method request.path tsStr
  if crates.hmacSha256 (utf8Bytes secret) (utf8Bytes message) = sigBytes then .ok ()
  else .error unauthorized

/-- `authorize` in a build of either kind; nothing is a panic. -/
def authorizeIn (mode : Overflow) (now : Int64) (request : Request) :
    Option (Except ℕ Unit) :=
  match credentials request with
  | .error code => some (.error code)
  | .ok (tsStr, sigHex) =>
      match parseI64 tsStr with
      | none => some (.error badRequest)
      | some ts => (inWindow mode now ts).map fun fresh =>
          if fresh then checkSignature crates secret request tsStr sigHex
          else .error unauthorized

variable {now ts : Int64}

theorem inWindow_wrapping :
    inWindow .wrapping now ts = some (!decide (300 < (now - ts).abs)) := by
  unfold inWindow
  rw [Overflow.sub_wrapping, Option.bind_some, Overflow.abs_wrapping]
  rfl

/-- The service is built without overflow checks. -/
theorem authorizeIn_wrapping (now : Int64) (request : Request) :
    authorizeIn crates secret .wrapping now request =
      some (authorize crates secret now request) := by
  unfold authorizeIn authorize
  cases hcred : credentials request with
  | error code => rfl
  | ok pair =>
      obtain ⟨tsStr, sigHex⟩ := pair
      show (match parseI64 tsStr with
        | none => _
        | some ts => _) = some (okOr (parseI64 tsStr) badRequest >>= fun ts => _)
      cases hts : parseI64 tsStr with
      | none => rfl
      | some ts =>
          show (inWindow .wrapping now ts).map _ = some
            (if 300 < (now - ts).abs then .error unauthorized
            else checkSignature crates secret request tsStr sigHex)
          rw [inWindow_wrapping, Option.map_some]
          by_cases hlate : 300 < (now - ts).abs
          · simp [hlate]
          · simp [hlate]

end Authorize

/-! ## Where the difference fits -/

variable {now ts : Int64}

/-- No timestamp is so late that the difference falls below the range. -/
theorem difference_low (ts : Int64) (hnow : 0 ≤ now) : -2 ^ 63 < now.toInt - ts.toInt := by
  have hlow : (0 : ℤ) ≤ now.toInt := Int64.le_iff_toInt_le.mp hnow
  have hhigh := Int64.toInt_lt ts
  omega

theorem inWindow_fits (mode : Overflow) (hnow : 0 ≤ now)
    (hfits : now.toInt - ts.toInt < 2 ^ 63) :
    inWindow mode now ts = some (decide ((now.toInt - ts.toInt).natAbs ≤ 300)) := by
  have hlow := difference_low ts hnow
  have hsub : (Int64.ofInt (now.toInt - ts.toInt)).toInt = now.toInt - ts.toInt :=
    Int64.toInt_ofInt_of_le (by omega) hfits
  unfold inWindow Overflow.sub
  rw [mode.result_fits ⟨by omega, hfits⟩, Option.bind_some]
  unfold Overflow.abs
  rw [hsub, mode.result_fits ⟨by omega, by omega⟩, Option.map_some]
  congr 1
  rw [← decide_not, decide_eq_decide, Int64.lt_iff_toInt_lt,
    Int64.toInt_ofInt_of_le (by omega) (by omega)]
  show ¬ (300 : ℤ) < _ ↔ _
  omega

theorem inWindow_checked_eq_none (hnow : 0 ≤ now) :
    inWindow .checked now ts = none ↔ ¬ now.toInt - ts.toInt < 2 ^ 63 := by
  have hlow := difference_low ts hnow
  constructor
  · intro hnone hfits
    rw [inWindow_fits .checked hnow hfits] at hnone
    cases hnone
  · intro hfar
    have hsub : Overflow.checked.sub now ts = none :=
      Overflow.result_checked_eq_none.mpr fun h => hfar h.2
    unfold inWindow
    rw [hsub]
    rfl

section Builds

variable {crates : HttpCrates} {secret : String} {request : Request}

/-- With overflow checks the answer is the same, where there is one. -/
theorem authorize_of_checked (hnow : 0 ≤ now) {r : Except ℕ Unit}
    (h : authorizeIn crates secret .checked now request = some r) :
    authorize crates secret now request = r := by
  refine Option.some_inj.mp ((authorizeIn_wrapping crates secret now request).symm.trans ?_)
  unfold authorizeIn at h ⊢
  cases hcred : credentials request with
  | error code =>
      rw [hcred] at h
      exact h
  | ok pair =>
      obtain ⟨tsStr, sigHex⟩ := pair
      simp only [hcred] at h ⊢
      cases hts : parseI64 tsStr with
      | none =>
          rw [hts] at h
          exact h
      | some ts =>
          simp only [hts] at h ⊢
          have hfits : now.toInt - ts.toInt < 2 ^ 63 := by
            by_contra hfar
            rw [(inWindow_checked_eq_none hnow).mpr hfar] at h
            cases h
          rw [inWindow_fits .checked hnow hfits] at h
          rw [inWindow_fits .wrapping hnow hfits]
          exact h

/-- And there is one where the difference fits. -/
theorem authorizeIn_eq_some (hnow : 0 ≤ now) {tsStr sigHex : String}
    (hcred : credentials request = .ok (tsStr, sigHex)) (hts : parseI64 tsStr = some ts)
    (hfits : now.toInt - ts.toInt < 2 ^ 63) :
    ∃ r, authorizeIn crates secret .checked now request = some r := by
  unfold authorizeIn
  simp only [hcred, hts, inWindow_fits .checked hnow hfits, Option.map_some]
  exact ⟨_, rfl⟩

end Builds

/-! ## The two checks -/

/-- Neither the subtraction nor the absolute value leaves the range. -/
def NoOverflow (mode : Overflow) (now ts : Int64) : Prop :=
  ∃ difference distance, mode.sub now ts = some difference ∧
    difference.toInt = now.toInt - ts.toInt ∧
    mode.abs difference = some distance ∧
    distance.toInt = difference.toInt.natAbs

theorem noOverflow_iff (mode : Overflow) (hnow : 0 ≤ now) :
    NoOverflow mode now ts ↔ now.toInt - ts.toInt < 2 ^ 63 := by
  have hlow := difference_low ts hnow
  constructor
  · rintro ⟨difference, distance, -, hdifference, -, -⟩
    rw [← hdifference]
    exact Int64.toInt_lt difference
  · intro hfits
    have hsub : (Int64.ofInt (now.toInt - ts.toInt)).toInt = now.toInt - ts.toInt :=
      Int64.toInt_ofInt_of_le (by omega) hfits
    refine ⟨_, _, mode.result_fits ⟨by omega, hfits⟩, hsub,
      mode.result_fits ⟨by omega, by omega⟩, ?_⟩
    exact Int64.toInt_ofInt_of_le (by omega) (by omega)

/-- The check of a request's timestamp is the exact one, and its sibling's. -/
structure WindowExact (crates : HttpCrates) (secret : String) (mode : Overflow)
    (now : Int64) (request : Request) (ts : Int64) : Prop where
  noOverflow : NoOverflow mode now ts
  noPanic : authorizeIn crates secret mode now request ≠ none
  passes : inWindow mode now ts = some true ↔
    (now.toInt - ts.toInt).natAbs ≤ 300
  sibling : ∀ (crates : Videogen.Crates) registry keyId key method path bodyHashHex
    signatureHex, Videogen.HmacKeyRegistry.get registry keyId = some key →
    (inWindow mode now ts = some true ↔
      Videogen.verifyCompletionSignature crates registry keyId method path ts
        bodyHashHex signatureHex now 300 ≠ .error .timestampOutsideSkew)

/-- **The window is the exact one unless the difference overflows**, in a build of
either kind: the timestamps from 2^63 seconds before the clock on. -/
theorem freshness_iff (crates : HttpCrates) (secret : String) (mode : Overflow)
    (now : Int64) (hnow : 0 ≤ now) (request : Request) (tsStr sigHex : String)
    (hcred : credentials request = .ok (tsStr, sigHex)) (ts : Int64)
    (hts : parseI64 tsStr = some ts) :
    WindowExact crates secret mode now request ts ↔
      now.toInt - ts.toInt < 2 ^ 63 := by
  constructor
  · intro h
    exact (noOverflow_iff mode hnow).mp h.noOverflow
  · intro hfits
    have hwindow := inWindow_fits mode hnow hfits
    have hpasses : inWindow mode now ts = some true ↔
        (now.toInt - ts.toInt).natAbs ≤ 300 := by
      rw [hwindow, Option.some_inj, decide_eq_true_eq]
    refine ⟨(noOverflow_iff mode hnow).mpr hfits, ?_, hpasses, ?_⟩
    · unfold authorizeIn
      simp only [hcred, hts, hwindow, Option.map_some]
      nofun
    · intro crates registry keyId key method path bodyHashHex signatureHex hkey
      have h300 : max (300 : Int64).toInt 0 = 300 := rfl
      rw [hpasses, Ne, Videogen.verifyCompletionSignature_outside hkey, h300]
      omega

/-! ## A timestamp before the range -/

/-- A request with this timestamp. -/
def stampedRequest (tsStr : String) : Request where
  method := "GET"
  path := "/mirror/duplicates/vid-1"
  query := none
  headers := [("x-timestamp", some tsStr),
    ("authorization", some "HMAC-SHA256 00")]

/-- June 2025. -/
def june : Int64 := 1750000000

theorem parseI64_june : parseI64 "1749999990" = some 1749999990 := by
  decide +kernel

theorem freshness_june :
    WindowExact (normalCrates []) "secret" .checked june (stampedRequest "1749999990")
      1749999990 ↔ june.toInt - (1749999990 : Int64).toInt < 2 ^ 63 :=
  freshness_iff (normalCrates []) "secret" .checked june (by decide)
    (stampedRequest "1749999990") "1749999990" "00" rfl 1749999990 parseI64_june

/-- 2^63 seconds before June 2025: a build with checks panics, one without takes
the timestamp for a fresh one. -/
theorem window_overflows :
    parseI64 "-9223372035104775808" = some (-9223372035104775808) ∧
      authorizeIn (normalCrates []) "secret" .checked june
        (stampedRequest "-9223372035104775808") = none ∧
      inWindow .wrapping june (-9223372035104775808) = some true ∧
      ¬ (june.toInt - (-9223372035104775808 : Int64).toInt).natAbs ≤ 300 ∧
      ¬ WindowExact (normalCrates []) "secret" .checked june
        (stampedRequest "-9223372035104775808") (-9223372035104775808) ∧
      ¬ WindowExact (normalCrates []) "secret" .wrapping june
        (stampedRequest "-9223372035104775808") (-9223372035104775808) := by
  have hpanics : authorizeIn (normalCrates []) "secret" .checked june
      (stampedRequest "-9223372035104775808") = none := by
    decide +kernel
  have haccepts : inWindow .wrapping june (-9223372035104775808) = some true := by
    decide +kernel
  have hfar : ¬ (june.toInt - (-9223372035104775808 : Int64).toInt).natAbs ≤ 300 := by
    decide +kernel
  refine ⟨by decide +kernel, hpanics, haccepts, hfar, ?_, ?_⟩
  · exact fun h => h.noPanic hpanics
  · exact fun h => hfar (h.passes.mp haccepts)

end VideoStorage.Mirror
