import VideoStorage.Videogen.Effects
import VideoStorage.Videogen.Workflow

/-!
# The duration of a clip

The fingerprint, the input of Vast and the workflow each read the optional
duration of a request by themselves. The first two take 5 seconds for one that
is not given, the workflow takes its bound, and only the workflow has a bound.
-/

namespace VideoStorage.Videogen

open Foundation

/-- The seconds the number of frames is computed from. -/
def workflowClip (workflow : Json) : Option Json :=
  nodeInput workflow "267:225" "value"

/-- The workflow, the input of Vast and the fingerprint have one duration. -/
structure OneDuration (request : GenerateRequest) : Prop where
  vast : ∀ stagedImageUrl,
    (vastInput request stagedImageUrl).get? "duration_seconds" =
      some (.ofInt (fingerprintInput request).duration.toNat)
  workflow : ∀ stagedImageUrl,
    workflowClip (buildLtx2Workflow request stagedImageUrl) =
      some (.ofInt (fingerprintInput request).duration.toNat)

/-- A duration is asked for that the workflow takes. -/
def GivenInRange (durationSeconds : Option UInt8) : Prop :=
  ∃ d ≤ maxDurationSecs, durationSeconds = some d

/-- Two requests have the same fingerprint. -/
def SameFingerprint (crates : Crates) (r r' : GenerateRequest) : Prop :=
  ∃ f f', computeRequestFingerprint crates (fingerprintInput r) = .ok f ∧
    computeRequestFingerprint crates (fingerprintInput r') = .ok f' ∧
    f.requestFingerprint = f'.requestFingerprint

/-- The same is made and asked for, whatever image is staged. -/
structure SameOutputs (r r' : GenerateRequest) : Prop where
  clip : ∀ stagedImageUrl, workflowClip (buildLtx2Workflow r stagedImageUrl) =
    workflowClip (buildLtx2Workflow r' stagedImageUrl)
  vast : ∀ stagedImageUrl, vastInput r stagedImageUrl = vastInput r' stagedImageUrl

/-- The text of an object and its hash are no other object's. -/
structure TellsApart (crates : Crates) (j j' : Json) : Prop where
  hash : crates.sha256Hex (utf8 (crates.jsonText j)) =
    crates.sha256Hex (utf8 (crates.jsonText j')) → crates.jsonText j = crates.jsonText j'
  text : crates.jsonText j = crates.jsonText j' → j = j'

/-- The object whose text is hashed. -/
def canonicalOf (crates : Crates) (input : RequestFingerprintInput) :
    Except FingerprintError Json :=
  (computeImageIdentity crates input.image).map fun identity =>
    canonical input identity.1 identity.2

variable {crates : Crates} {request r r' : GenerateRequest}

/-! ## Readings of the duration -/

theorem workflowClip_build (stagedImageUrl : Option String) :
    workflowClip (buildLtx2Workflow request stagedImageUrl) =
      some (.ofInt (workflowDuration request.durationSeconds)) :=
  nodeInput_single rfl

theorem vastInput_duration (hextra : request.extraParams = .empty)
    (stagedImageUrl : Option String) :
    (vastInput request stagedImageUrl).get? "duration_seconds" =
      some (.ofInt (request.durationSeconds.getD 5).toNat) := by
  show Json.Map.get _ "duration_seconds" = _
  rw [Json.Map.get_extend, hextra, Json.Map.get_empty, Option.none_or]
  cases stagedImageUrl with
  | none => exact Json.Map.get_insertAll (by simp)
  | some url =>
      exact (Json.Map.get_insert_ne (by decide)).trans
        (Json.Map.get_insertAll (by simp))

theorem fingerprintInput_duration :
    (fingerprintInput request).duration.toNat =
      (request.durationSeconds.getD 5).toNat := by
  show (request.durationSeconds.getD 5).toUInt32.toNat = _
  rw [UInt8.toNat_toUInt32]

theorem workflowDuration_some (d : UInt8) :
    workflowDuration (some d) = if d ≤ maxDurationSecs then d.toNat else 15 := by
  unfold workflowDuration
  rw [Option.filter_some]
  by_cases hd : d ≤ maxDurationSecs
  · simp [hd]
  · simp only [hd, decide_false, if_false]
    rfl

/-- The defaults differ, and above the bound so do the durations. -/
theorem workflowDuration_eq_iff {d : Option UInt8} :
    workflowDuration d = (d.getD 5).toNat ↔ GivenInRange d := by
  cases d with
  | none =>
      refine iff_of_false (by decide) ?_
      rintro ⟨d, -, hd⟩
      cases hd
  | some d =>
      rw [workflowDuration_some, Option.getD_some]
      constructor
      · intro heq
        refine ⟨d, ?_, rfl⟩
        by_contra hd
        rw [if_neg hd] at heq
        -- a duration above the bound is not the bound
        rw [UInt8.le_iff_toNat_le, ← heq] at hd
        exact hd (by decide)
      · rintro ⟨_, hd, ⟨⟩⟩
        exact if_pos hd

theorem oneDuration_iff (hextra : request.extraParams = .empty) :
    OneDuration request ↔ GivenInRange request.durationSeconds := by
  rw [← workflowDuration_eq_iff]
  constructor
  · intro h
    have hclip := h.workflow none
    rw [workflowClip_build, fingerprintInput_duration] at hclip
    have hint := ofInt_injective (Option.some.inj hclip)
    omega
  · intro h
    constructor
    · intro url
      rw [vastInput_duration hextra, fingerprintInput_duration]
    · intro url
      rw [workflowClip_build, fingerprintInput_duration, h]

/-! ## Two requests of one fingerprint -/

theorem computeRequestFingerprint_ok {input : RequestFingerprintInput}
    {f : RequestFingerprint} (h : computeRequestFingerprint crates input = .ok f) :
    ∃ j, canonicalOf crates input = .ok j ∧
      f.requestFingerprint = crates.sha256Hex (utf8 (crates.jsonText j)) := by
  unfold computeRequestFingerprint at h
  unfold canonicalOf
  cases hi : computeImageIdentity crates input.image with
  | error e =>
      rw [hi] at h
      cases h
  | ok identity =>
      rw [hi] at h
      cases h
      exact ⟨_, rfl, rfl⟩

/-- What two requests of one fingerprint have in common, but for their images. -/
theorem SameFingerprint.fields
    (h : SameFingerprint crates r r')
    (htells : ∀ j j', canonicalOf crates (fingerprintInput r) = .ok j →
      canonicalOf crates (fingerprintInput r') = .ok j' → TellsApart crates j j') :
    { fingerprintInput r with image := .none } =
      { fingerprintInput r' with image := .none } := by
  obtain ⟨f, f', hf, hf', hsame⟩ := h
  obtain ⟨j, hj, hjf⟩ := computeRequestFingerprint_ok hf
  obtain ⟨j', hj', hjf'⟩ := computeRequestFingerprint_ok hf'
  have hdistinct := htells j j' hj hj'
  have heq : j = j' :=
    hdistinct.text (hdistinct.hash (by rw [← hjf, ← hjf', hsame]))
  subst heq
  unfold canonicalOf at hj hj'
  cases hi : computeImageIdentity crates (fingerprintInput r).image with
  | error e =>
      rw [hi] at hj
      cases hj
  | ok identity =>
      cases hi' : computeImageIdentity crates (fingerprintInput r').image with
      | error e =>
          rw [hi'] at hj'
          cases hj'
      | ok identity' =>
          rw [hi] at hj
          rw [hi'] at hj'
          have hcanonical : canonical (fingerprintInput r) identity.1 identity.2 =
              canonical (fingerprintInput r') identity'.1 identity'.2 :=
            (Except.ok.inj hj).trans (Except.ok.inj hj').symm
          exact (canonical_inj hcanonical).1

theorem durations_eq {d d' : UInt8} (h : d.toUInt32 = d'.toUInt32) : d = d' := by
  have hnat := congrArg UInt32.toNat h
  rw [UInt8.toNat_toUInt32, UInt8.toNat_toUInt32] at hnat
  exact UInt8.toNat_inj.mp hnat

theorem seeds_eq {s s' : Option UInt64}
    (h : s.map UInt64.toInt64 = s'.map UInt64.toInt64) : s = s' := by
  refine Option.map_injective ?_ h
  intro a b hab
  have hbits := congrArg Int64.toUInt64 hab
  rwa [UInt64.toUInt64_toInt64, UInt64.toUInt64_toInt64] at hbits

/-- **Vast is asked for the same** under one fingerprint. -/
theorem SameFingerprint.vastInput (h : SameFingerprint crates r r')
    (htells : ∀ j j', canonicalOf crates (fingerprintInput r) = .ok j →
      canonicalOf crates (fingerprintInput r') = .ok j' → TellsApart crates j j')
    (hextra : r.extraParams = .empty) (hextra' : r'.extraParams = .empty)
    (url : Option String) : Videogen.vastInput r url = Videogen.vastInput r' url := by
  have hfields := h.fields htells
  rw [RequestFingerprintInput.mk.injEq] at hfields
  obtain ⟨-, -, hprompt, hnegative, haspect, hduration, hresolution, hseed, haudio,
    -⟩ := hfields
  unfold Videogen.vastInput
  rw [hextra, hextra']
  have hp : r.prompt = r'.prompt := hprompt
  have hn : r.negativePrompt = r'.negativePrompt := hnegative
  have ha : r.aspectRatio.getD "16:9" = r'.aspectRatio.getD "16:9" := haspect
  have hd : r.durationSeconds.getD 5 = r'.durationSeconds.getD 5 :=
    durations_eq hduration
  have hr : r.resolution.getD "720p" = r'.resolution.getD "720p" := hresolution
  have hs : r.seed = r'.seed := seeds_eq hseed
  have hg : r.generateAudio.getD false = r'.generateAudio.getD false := haudio
  rw [hp, hn, ha, hd, hr, hs, hg]

/-- Equal but for one that is not given where the other is the default. -/
theorem workflowDuration_inj_iff {d d' : Option UInt8} (h : d.getD 5 = d'.getD 5) :
    workflowDuration d = workflowDuration d' ↔ (d = none ↔ d' = none) := by
  cases d with
  | none =>
      cases d' with
      | none => simp
      | some d' =>
          obtain rfl : (5 : UInt8) = d' := h
          refine iff_of_false (by decide) (by simp)
  | some d =>
      cases d' with
      | none =>
          obtain rfl : d = (5 : UInt8) := h
          refine iff_of_false (by decide) (by simp)
      | some d' =>
          obtain rfl : d = d' := h
          simp

/-- **One duration for a request** that gives one within the bound, and for no
other; and two requests of one fingerprint make the same clip unless one of them
leaves out what the other says. -/
theorem duration_consistent_iff (crates : Crates) (r r' : GenerateRequest)
    (hextra : r.extraParams = .empty) (hextra' : r'.extraParams = .empty)
    (htells : ∀ j j', canonicalOf crates (fingerprintInput r) = .ok j →
      canonicalOf crates (fingerprintInput r') = .ok j' → TellsApart crates j j') :
    (OneDuration r ∧ OneDuration r' ↔
        GivenInRange r.durationSeconds ∧ GivenInRange r'.durationSeconds) ∧
      (SameFingerprint crates r r' →
        (SameOutputs r r' ↔ (r.durationSeconds = none ↔ r'.durationSeconds = none))) := by
  refine ⟨and_congr (oneDuration_iff hextra) (oneDuration_iff hextra'), ?_⟩
  intro hsame
  have hfields := hsame.fields htells
  rw [RequestFingerprintInput.mk.injEq] at hfields
  have hduration : r.durationSeconds.getD 5 = r'.durationSeconds.getD 5 :=
    durations_eq hfields.2.2.2.2.2.1
  rw [← workflowDuration_inj_iff hduration]
  constructor
  · intro h
    have hclip := h.clip none
    rw [workflowClip_build, workflowClip_build] at hclip
    have hint := ofInt_injective (Option.some.inj hclip)
    omega
  · intro h
    constructor
    · intro url
      rw [workflowClip_build, workflowClip_build, h]
    · exact hsame.vastInput htells hextra hextra'

/-! ## A request for what is the default -/

def fiveSeconds : GenerateRequest := { catRequest with durationSeconds := some 5 }

/-- The defaults are in the canonical object, so it is one object. -/
theorem canonicalOf_fiveSeconds : canonicalOf catCrates (fingerprintInput fiveSeconds) =
    canonicalOf catCrates (fingerprintInput catRequest) := rfl

theorem tellsApart_fiveSeconds (j j' : Json)
    (hj : canonicalOf catCrates (fingerprintInput fiveSeconds) = .ok j)
    (hj' : canonicalOf catCrates (fingerprintInput catRequest) = .ok j') :
    TellsApart catCrates j j' := by
  rw [canonicalOf_fiveSeconds, hj'] at hj
  obtain rfl : j' = j := Except.ok.inj hj
  exact ⟨fun _ => rfl, fun _ => rfl⟩

theorem duration_consistent_cat :
    (OneDuration fiveSeconds ∧ OneDuration catRequest ↔
        GivenInRange (some 5) ∧ GivenInRange none) ∧
      (SameFingerprint catCrates fiveSeconds catRequest →
        (SameOutputs fiveSeconds catRequest ↔ (some (5 : UInt8) = none ↔ (none : Option UInt8) = none))) :=
  duration_consistent_iff catCrates fiveSeconds catRequest rfl rfl tellsApart_fiveSeconds

theorem workflowClip_ne {d d' : Option UInt8}
    (h : workflowDuration d ≠ workflowDuration d') :
    Json.ofInt (workflowDuration d) ≠ Json.ofInt (workflowDuration d') := by
  intro heq
  have hint := ofInt_injective heq
  omega

/-- No duration and 5 seconds have one fingerprint, and clips of 15 and of 5
seconds. -/
theorem duration_inconsistent :
    catRequest.extraParams = .empty ∧ ¬ OneDuration catRequest ∧
      SameFingerprint catCrates fiveSeconds catRequest ∧
      ¬ SameOutputs fiveSeconds catRequest := by
  refine ⟨rfl, ?_, ?_, ?_⟩
  · rw [oneDuration_iff rfl]
    rintro ⟨d, -, hd⟩
    cases hd
  · exact ⟨_, _, rfl, rfl, rfl⟩
  · intro h
    have hclip := h.clip none
    rw [workflowClip_build, workflowClip_build] at hclip
    exact workflowClip_ne (by decide) (Option.some.inj hclip)

end VideoStorage.Videogen
