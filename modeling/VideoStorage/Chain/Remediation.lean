import VideoStorage.Chain.CategoryChanges

/-!
# The audit with remediation

The route only reads unless it is asked to remediate, and what it deletes changes no
category (`chainAuditRoute_spec`). After a remediation, the import it spawned and a
run of `media_phash`, every servable master row of category B was attempted, and a
video of B is in A exactly if one of its rows could be hashed
(`remediation_hashes`).
-/

namespace VideoStorage.Chain

open Foundation MediaIndex Jobs.MediaPhash
open Jobs.MediaImports (ImportEnv ImportError importCurrentVideoIndex)
open VideoStorage.Db (VideoIndexRow VideoTables)

/-! ## The route -/

section Route

variable {env : AuditEnv} {remediate : Bool} {c c' : ChainDb} {ienv : ImportEnv}
  {outcome : Option (Except ImportError String)} {now : ℤ} {videoUid : String}

/-- A request changes failures only, so its import starts from the same videos. -/
theorem spawned_cat (h : AfterImport ienv (env.chainAudit remediate c) outcome c')
    (hone : (env.chainAudit remediate c).spawned = true →
      c.OneStatus env.lower videoUid) :
    CatImported env.lower now c c' (env.chainAudit remediate c).spawned videoUid := by
  obtain ⟨failures, hdb⟩ := @AuditEnv.chainAudit_db env c remediate
  have hcat := @AfterImport.cat env.lower now c' videoUid _ _ _ h
  rw [hdb] at hcat
  obtain ⟨hstatus, hhash, hindex⟩ := hcat hone
  exact ⟨hstatus, hhash, hindex⟩

/-- A servable video is in A or in B. -/
theorem category_servable {lower : String → String}
    (h : (c.audit.cat lower now videoUid).masterStatus = some "servable") :
    InCategory lower now c.audit videoUid .a ∨
      InCategory lower now c.audit videoUid .b := by
  cases hhash : (c.audit.cat lower now videoUid).hasHash with
  | true => exact .inl (inCategory_a.mpr ⟨h, hhash⟩)
  | false => exact .inr (inCategory_b.mpr ⟨h, hhash⟩)

/-- A video keeps its category, or a row of the index took it out of C or E. -/
theorem CatImported.category {lower : String → String} {spawned : Bool}
    (h : CatImported lower now c c' spawned videoUid) {k : Category}
    (hk : InCategory lower now c.audit videoUid k) :
    InCategory lower now c'.audit videoUid k ∨
      spawned = true ∧ (k = .c ∨ k = .e) ∧ ¬ c.AllInMaster lower videoUid ∧
        (InCategory lower now c'.audit videoUid .a ∨
          InCategory lower now c'.audit videoUid .b) := by
  obtain ⟨hstatus, hhash, hindex⟩ := h
  rcases hstatus with hsame | ⟨hspawned, hservable, hnew⟩
  · refine .inl ?_
    rw [inCategory_iff] at hk ⊢
    unfold Cat.category at hk ⊢
    rw [hsame, hhash, hindex]
    exact hk
  cases k with
  | a => exact .inl (inCategory_a.mpr ⟨hservable, hhash.trans (inCategory_a.mp hk).2⟩)
  | b => exact .inl (inCategory_b.mpr ⟨hservable, hhash.trans (inCategory_b.mp hk).2⟩)
  | c => exact .inr ⟨hspawned, .inl rfl, hnew, category_servable hservable⟩
  | d => exact absurd (@allInMaster_of_inIndex _ now _ _ (inCategory_d.mp hk).2) hnew
  | e => exact .inr ⟨hspawned, .inr rfl, hnew, category_servable hservable⟩

/-- **The route** only reads unless it is asked to remediate, and what it deletes
changes no category. It fails exactly if a query fails that it comes to, and refuses,
of at most 200 expected videos, exactly if more than half are in category D; else it
answers with the report. The import that it spawned moves videos from C and E into
A and B only. -/
theorem chainAuditRoute_spec (env : AuditEnv) (remediate : Bool) (c : ChainDb) :
    (remediate = false → (env.chainAudit remediate c).db = c ∧
      (env.chainAudit remediate c).spawned = false) ∧
    (∀ now videoUid k,
      InCategory env.lower now (env.chainAudit remediate c).db.audit videoUid k ↔
        InCategory env.lower now c.audit videoUid k) ∧
    ((env.chainAudit remediate c).reply = .error .internalServerError ↔
      ∃ q ∈ env.asked remediate c, env.fails q = true) ∧
    (c.audit.expected.length ≤ 200 →
      ((env.chainAudit remediate c).reply = .error .unprocessableEntity ↔
        [.connect, .snapshotFreshness, .joinKeyMatchRate].any env.fails = false ∧
          (chainAudit env.lower env.now c.audit).totalExpected
            < 2 * (chainAudit env.lower env.now c.audit).categoryD)) ∧
    (∀ resp, (env.chainAudit remediate c).reply = .ok resp →
      env.Answered remediate c resp) ∧
    ∀ ienv outcome c', AfterImport ienv (env.chainAudit remediate c) outcome c' →
      ∀ now videoUid k, ((env.chainAudit remediate c).spawned = true →
          c.OneStatus env.lower videoUid) →
        InCategory env.lower now c.audit videoUid k →
          InCategory env.lower now c'.audit videoUid k ∨
            (env.chainAudit remediate c).spawned = true ∧ (k = .c ∨ k = .e) ∧
              ¬ c.AllInMaster env.lower videoUid ∧
              (InCategory env.lower now c'.audit videoUid .a ∨
                InCategory env.lower now c'.audit videoUid .b) := by
  refine ⟨fun hno => ?_, fun now videoUid k => ?_, AuditEnv.internal_iff, fun hsample => ?_,
    fun resp h => AuditEnv.answered h, ?_⟩
  · rcases @AuditEnv.chainAudit_cases env c remediate with ⟨hdb, hspawned, -⟩ | ⟨hyes, -⟩
    · exact ⟨hdb, hspawned⟩
    · exact absurd (hno.symm.trans hyes) Bool.false_ne_true
  · obtain ⟨failures, hdb⟩ := @AuditEnv.chainAudit_db env c remediate
    rw [hdb]
    exact inCategory_deleted
  · have hrate : joinKeyMatches env.order env.lower 200 c.audit = .ok _ := rfl
    rw [AuditEnv.unprocessable_iff, ← implausible_iff (by omega) hrate]
    exact Iff.rfl
  · intro ienv outcome c' h now videoUid k hone hk
    exact (spawned_cat h hone).category hk

end Route

/-! ## Remediation -/

/-- What a remediation, the import it spawned and a run make of a video: `c` before,
`c'` after. -/
structure Remedied (lower : String → String) (now : ℤ) (c c' : ChainDb)
    (spawned : Bool) (env : RunEnv) (s : RunState) (videoUid : String) : Prop where
  clean : InCategory lower now c.audit videoUid .a →
    InCategory lower now c'.audit videoUid .a
  unhashed : InCategory lower now c.audit videoUid .b →
    (InCategory lower now c'.audit videoUid .a ↔ HashedBy lower env s videoUid) ∧
    (InCategory lower now c'.audit videoUid .b ↔ ¬ HashedBy lower env s videoUid)
  indexed : InCategory lower now c.audit videoUid .c →
    InCategory lower now c'.audit videoUid .c ∨ spawned = true ∧
      (InCategory lower now c'.audit videoUid .a ↔
        c.audit.hasHash lower (uidKey lower videoUid) = true ∨
          HashedBy lower env s videoUid) ∧
      (InCategory lower now c'.audit videoUid .a ∨
        InCategory lower now c'.audit videoUid .b)
  absent : InCategory lower now c.audit videoUid .d →
    InCategory lower now c'.audit videoUid .d
  unservable : InCategory lower now c.audit videoUid .e →
    spawned = false ∨ c.AllInMaster lower videoUid →
      InCategory lower now c'.audit videoUid .e

section Remedied

variable {lower : String → String} {now : ℤ} {c c₁ c' : ChainDb} {spawned : Bool}
  {env : RunEnv} {s : RunState} {videoUid : String}

theorem remedied (himport : CatImported lower now c c₁ spawned videoUid)
    (hrun : Hashed env c₁.db s) :
    Remedied lower now c (c₁.withDb s.db) spawned env s videoUid := by
  obtain ⟨hstatus, hindex, hhash⟩ := @cat_run lower now c₁ videoUid env s hrun
  rw [himport.hasHash] at hhash
  rw [himport.inIndex] at hindex
  -- once servable, a video is in A or B by its hashes
  have hservable : (c₁.audit.cat lower now videoUid).masterStatus = some "servable" →
      ((c₁.withDb s.db).audit.cat lower now videoUid).masterStatus
        = some "servable" := hstatus.trans
  have hsame : (c.audit.cat lower now videoUid).masterStatus = some "servable" →
      ((c₁.withDb s.db).audit.cat lower now videoUid).masterStatus = some "servable" := by
    intro h
    rcases himport.status with hkept | ⟨-, hnew, -⟩
    · exact hservable (hkept.trans h)
    · exact hservable hnew
  refine ⟨fun ha => ?_, fun hb => ?_, fun hc => ?_, fun hd => ?_, fun he hall => ?_⟩
  · obtain ⟨hs, hh⟩ := inCategory_a.mp ha
    exact inCategory_a.mpr ⟨hsame hs, hhash.mpr (.inl hh)⟩
  · obtain ⟨hs, hno⟩ := inCategory_b.mp hb
    have hbefore : (c.audit.cat lower now videoUid).hasHash = false := hno
    rw [hbefore] at hhash
    have hby : ((c₁.withDb s.db).audit.cat lower now videoUid).hasHash = true ↔
        HashedBy lower env s videoUid :=
      hhash.trans ⟨fun h => h.resolve_left Bool.false_ne_true, .inr⟩
    rw [inCategory_a, inCategory_b, ← hby]
    exact ⟨⟨fun h => h.2, fun h => ⟨hsame hs, h⟩⟩,
      ⟨fun h => Bool.not_eq_true _ ▸ h.2, fun h => ⟨hsame hs, Bool.not_eq_true _ ▸ h⟩⟩⟩
  · obtain ⟨hnone, hin⟩ := inCategory_c.mp hc
    rcases himport.status with hkept | ⟨hspawned, hnew, -⟩
    · exact .inl (inCategory_c.mpr
        ⟨hstatus.trans (hkept.trans hnone), hindex.trans hin⟩)
    · refine .inr ⟨hspawned, ?_, category_servable (hservable hnew)⟩
      rw [inCategory_a]
      exact ⟨fun h => hhash.mp h.2, fun h => ⟨hservable hnew, hhash.mpr h⟩⟩
  · obtain ⟨hnone, hin⟩ := inCategory_d.mp hd
    rcases himport.status with hkept | ⟨-, -, hnew⟩
    · have hafter := hstatus.trans (hkept.trans (masterStatus_eq_none.mpr hnone))
      exact inCategory_d.mpr ⟨masterStatus_eq_none.mp hafter, hindex.trans hin⟩
    · exact absurd (@allInMaster_of_inIndex _ now _ _ hin) hnew
  · obtain ⟨status, hs, hne⟩ := inCategory_e.mp he
    rcases himport.status with hkept | ⟨hspawned, -, hnew⟩
    · exact inCategory_e.mpr ⟨status, hstatus.trans (hkept.trans hs), hne⟩
    · rcases hall with hno | hall
      · exact absurd (hno.symm.trans hspawned) Bool.false_ne_true
      · exact absurd hall hnew

end Remedied

section Remediation

variable {aenv : AuditEnv} {c c₁ : ChainDb} {resp : ChainAuditResponse}
  {ienv : ImportEnv} {outcome : Option (Except ImportError String)} {env : RunEnv}
  {fuel : ℕ} {status videoUid : String} {s : RunState}

/-- The servable master rows of B are those that a remediation clears. -/
theorem mem_bIds {now : ℤ}
    (hlimit : (c.audit.categoryBRows aenv.lower).length ≤ remediationLimit)
    (hexp : videoUid ∈ c.audit.expected)
    (hb : InCategory aenv.lower now c.audit videoUid .b)
    {m : (_ : String) × ServableVideo}
    (hm : m ∈ c.audit.servableMasters aenv.lower (uidKey aenv.lower videoUid)) :
    m.1 ∈ aenv.bIds c := by
  unfold AuditEnv.bIds
  rw [limited_eq_self fun n hn => by
    obtain rfl := Option.mem_some_iff.mp hn
    omega]
  exact mem_categoryBRows.mpr ⟨videoUid, hexp, (inCategory_b.mp hb).2, m.2, hm⟩

/-- A run attempts them, for their failures are gone. -/
theorem attempts_of_b {now : ℤ} (hhistory : FailureHistory c.db.failures)
    (hlimit : (c.audit.categoryBRows aenv.lower).length ≤ remediationLimit)
    (hreply : (aenv.chainAudit true c).reply = .ok resp)
    (himport : AfterImport ienv (aenv.chainAudit true c) outcome c₁)
    (henv : Jobs.Drains env) (hrun : runInner env c₁.db fuel = some (.ok (status, s)))
    (hexp : videoUid ∈ c.audit.expected)
    (hb : InCategory aenv.lower now c.audit videoUid .b)
    {m : (_ : String) × ServableVideo}
    (hm : m ∈ c.audit.servableMasters aenv.lower (uidKey aenv.lower videoUid)) :
    m.1 ∈ s.ids := by
  have hid := mem_bIds hlimit hexp hb hm
  obtain ⟨hmaster, -⟩ := mem_servableMasters.mp hm
  obtain ⟨hget, hkey⟩ := mem_masters.mp hmaster
  obtain ⟨hdb, -⟩ := (AuditEnv.answered hreply).remediated rfl
  have hkept := @AfterImport.kept c₁ _ _ _ himport m.1 m.2 (by rw [hdb]; exact hget)
  have hback := himport.failures
  have hnone := @AfterImport.hasHash aenv.lower c₁ (uidKey aenv.lower videoUid) _ _ _
    himport
  rw [hdb] at hback hnone
  have hdue := (hhistory.backsOff.cleared (aenv.bIds c)).records hback
  have hhash : c₁.db.tables.get (.hash (hashKeyOf m.1)) = none :=
    hasHash_eq_false (hnone.trans (inCategory_b.mp hb).2) m.1 hkey fun _ => 0
  have hmem : m.2.missingRow m.1 ∈ s.attempts :=
    run_attempts henv.limit henv.pageSize henv.cancelled hrun
      ⟨⟨⟨m.2, hkept, rfl⟩, hhash, inShard_none henv.shard _⟩, hdue.due hid⟩
  exact List.mem_map.mpr ⟨_, hmem, rfl⟩

/-- **Remediation.** A request that remediated deleted the failures it counts. When
the import it spawned is over, a run of `media_phash` without limit and shard that is
not cancelled and returns `Ok` attempts every servable master row of B. A video of B
ends in A exactly if a row with its key could be hashed, and in B otherwise; A and D
stay, C stays or moves to A or B, and E stays if the import had nothing for it. No
video that a successful import could import is left in C. -/
theorem remediation_hashes (aenv : AuditEnv) (c : ChainDb)
    (hhistory : FailureHistory c.db.failures)
    (hlimit : (c.audit.categoryBRows aenv.lower).length ≤ remediationLimit)
    (resp : ChainAuditResponse) (hreply : (aenv.chainAudit true c).reply = .ok resp)
    (ienv : ImportEnv) (outcome : Option (Except ImportError String)) (c₁ : ChainDb)
    (himport : AfterImport ienv (aenv.chainAudit true c) outcome c₁)
    (env : RunEnv) (henv : Jobs.Drains env) (fuel : ℕ) (status : String) (s : RunState)
    (hrun : runInner env c₁.db fuel = some (.ok (status, s))) :
    (∃ n, resp.remediated = some ⟨n, (aenv.chainAudit true c).spawned⟩ ∧
      n + (aenv.chainAudit true c).db.db.failures.rows.length
        = c.db.failures.rows.length) ∧
    ∀ now, ∀ videoUid ∈ c.audit.expected,
      (InCategory aenv.lower now c.audit videoUid .b →
        ∀ m ∈ c.audit.servableMasters aenv.lower (uidKey aenv.lower videoUid),
          m.1 ∈ s.ids) ∧
      (((aenv.chainAudit true c).spawned = true → c.OneStatus aenv.lower videoUid) →
        Remedied aenv.lower now c (c₁.withDb s.db) (aenv.chainAudit true c).spawned
          env s videoUid) ∧
      ((∃ status, outcome = some (.ok status)) → ienv.Undisturbed →
        c.Importable aenv.lower videoUid ienv →
          ¬ InCategory aenv.lower now (c₁.withDb s.db).audit videoUid .c) := by
  obtain ⟨hdb, hcleared⟩ := (AuditEnv.answered hreply).remediated rfl
  refine ⟨⟨_, hcleared, ?_⟩, fun now videoUid hexp => ⟨fun hb m hm => ?_, ?_, ?_⟩⟩
  · rw [hdb]
    exact JobFailures.clearPhashFailures_length _ _
  · exact attempts_of_b hhistory hlimit hreply himport henv hrun hexp hb hm
  · exact fun hone => remedied (spawned_cat himport hone) (runInner_hashed hrun)
  · rintro ⟨status, hok⟩ hienv himportable hc
    have hthere : (aenv.chainAudit true c).db.Importable aenv.lower videoUid ienv := by
      rw [hdb]
      exact himportable
    obtain ⟨hstatus, hindex, -⟩ := @cat_run aenv.lower now c₁ videoUid env s
      (runInner_hashed hrun)
    obtain ⟨hnone, hin⟩ := inCategory_c.mp hc
    exact himport.imported hok hienv hthere
      (inCategory_c.mpr ⟨hstatus.symm.trans hnone, hindex.symm.trans hin⟩)

end Remediation

/-! ## A video that backs off, and one to import -/

/-- The download of a video failed. -/
def failedOnce : JobFailures :=
  ((({} : JobFailures).recordPhash 0 "run" "c/v" "phash_download"
    "timeout").toOption).getD {}

/-- Two expected posts: the video of one is in the master table and backs off, that
of the other only in the index. -/
def backingOffVideo : ChainDb where
  posts := ⟨[⟨"p", "v", "c", 0, "Uploaded", none, false⟩,
    ⟨"q", "w", "c", 0, "Uploaded", none, false⟩], by decide⟩
  video := { videoIndex := AList.singleton "w" { hetznerKey := some "w.mp4" } }
  db := {
    tables := { videos := AList.singleton "c/v" brokenVideo }
    failures := failedOnce }

/-- A run in which every download works. -/
def online : RunEnv :=
  { offline with
    deps := { offline.deps with
      s3 := fun _ _ => .ok ()
      decode := fun _ => .ok (.ok ⟨"0110", ⟨⟨0⟩, 0, 0, 0, ⟨0⟩⟩⟩) } }

def asking : AuditEnv where
  lower := asciiLower
  now := 0

theorem online_drains : Jobs.Drains online where
  limit := rfl
  shard := rfl
  pageSize := by decide
  concurrency := by decide
  cancelled _ := rfl

theorem asking_answers : ∃ resp, (asking.chainAudit true backingOffVideo).reply = .ok resp ∧
    resp.remediated = some ⟨1, true⟩ := by
  have hreply : (asking.chainAudit true backingOffVideo).reply.toOption.map (·.remediated) =
      some (some ⟨1, true⟩) := by
    decide
  obtain ⟨resp, hresp, hremediated⟩ := Option.map_eq_some_iff.mp hreply
  refine ⟨resp, ?_, hremediated⟩
  cases h : (asking.chainAudit true backingOffVideo).reply with
  | error status =>
      rw [h] at hresp
      cases hresp
  | ok resp' =>
      rw [h] at hresp
      exact congrArg Except.ok (Option.some.inj hresp)

/-- The import stores the one video, and the run hashes both. -/
theorem importing_runs : ∃ s₀ s,
    importCurrentVideoIndex Jobs.importEvery (asking.chainAudit true backingOffVideo).db.video
      (asking.chainAudit true backingOffVideo).db.db 9 = some (s₀, .ok "succeeded") ∧
    runInner online s₀.db 4 = some (.ok ("succeeded", s)) ∧
    (s.attempts.map fun row => (row.videoId, (hashRow online.deps row).isOk)) =
      [("c/v", true), ("w", true)] := by
  have hends : ((importCurrentVideoIndex Jobs.importEvery
      (asking.chainAudit true backingOffVideo).db.video
      (asking.chainAudit true backingOffVideo).db.db
      9).bind fun r => (runInner online r.1.db 4).map fun run =>
        (r.2.toOption, run.toOption.map fun (status, s) => (status,
          s.attempts.map fun row => (row.videoId, (hashRow online.deps row).isOk)))) =
      some (some "succeeded", some ("succeeded", [("c/v", true), ("w", true)])) := by
    decide
  obtain ⟨⟨s₀, r⟩, hr, hrest⟩ := Option.bind_eq_some_iff.mp hends
  obtain ⟨run, hrun, heq⟩ := Option.map_eq_some_iff.mp hrest
  obtain ⟨hr', hs⟩ := Prod.mk.inj heq
  obtain ⟨⟨status, s⟩, hss, heq⟩ := Option.map_eq_some_iff.mp hs
  obtain ⟨rfl, hatt⟩ := Prod.mk.inj heq
  refine ⟨s₀, s, ?_, ?_, hatt⟩
  · cases r with
    | error e => cases hr'
    | ok status => exact Option.some.inj hr' ▸ hr
  · cases run with
    | error e => cases hss
    | ok ss =>
        obtain rfl := Option.some.inj hss
        exact hrun

/-- An import and a run later the one is in A, and the other no longer in C. -/
theorem remediation_hashes_online : ∃ resp c₁ s,
    (asking.chainAudit true backingOffVideo).reply = .ok resp ∧
    resp.remediated = some ⟨1, true⟩ ∧
    AfterImport Jobs.importEvery (asking.chainAudit true backingOffVideo)
      (some (.ok "succeeded")) c₁ ∧
    runInner online c₁.db 4 = some (.ok ("succeeded", s)) ∧
    InCategory asciiLower 0 backingOffVideo.audit "v" .b ∧
    InCategory asciiLower 0 backingOffVideo.audit "w" .c ∧
    InCategory asciiLower 0 (c₁.withDb s.db).audit "v" .a ∧
    ¬ InCategory asciiLower 0 (c₁.withDb s.db).audit "w" .c := by
  obtain ⟨resp, hreply, hremediated⟩ := asking_answers
  obtain ⟨s₀, s, himport, hrun, hattempts⟩ := importing_runs
  have hb : InCategory asciiLower 0 backingOffVideo.audit "v" .b := by
    unfold InCategory
    decide
  have hc : InCategory asciiLower 0 backingOffVideo.audit "w" .c := by
    unfold InCategory
    decide
  have hafter : AfterImport Jobs.importEvery (asking.chainAudit true backingOffVideo)
      (some (.ok "succeeded"))
      ((asking.chainAudit true backingOffVideo).db.withDb s₀.db) :=
    .ended (by decide) rfl himport
  obtain ⟨-, hall⟩ := remediation_hashes asking backingOffVideo
    (.recordPhash .empty rfl) (by decide) resp hreply Jobs.importEvery _ _ hafter online
    online_drains 4 _ s hrun
  obtain ⟨-, hv, -⟩ := hall 0 "v" (by decide)
  obtain ⟨-, -, hw⟩ := hall 0 "w" (by decide)
  have hone : backingOffVideo.OneStatus asciiLower "v" := by
    unfold ChainDb.OneStatus
    decide
  refine ⟨resp, _, s, hreply, hremediated, hafter, hrun, hb, hc, ?_, ?_⟩
  · refine ((hv fun _ => hone).unhashed hb).1.mpr ?_
    have hmem : ("c/v", true) ∈ s.attempts.map fun row =>
        (row.videoId, (hashRow online.deps row).isOk) := by
      rw [hattempts]
      exact List.mem_cons_self
    obtain ⟨row, hrow, heq⟩ := List.mem_map.mp hmem
    obtain ⟨hid, hok⟩ := Prod.mk.inj heq
    refine ⟨row, hrow, ?_, hok⟩
    rw [hid]
    decide
  · exact hw ⟨_, rfl⟩ ⟨fun _ => rfl, nofun, by decide⟩
      ⟨"w", { hetznerKey := some "w.mp4" }, by decide, by decide, .inl rfl, rfl⟩

/-- The deletion is done, but its answer is lost. -/
def losing : AuditEnv :=
  { asking with
    fails := fun q => q = .clearPhashFailures
    answerLost := true }

/-- A request whose deletion is not answered fails, but the failures are gone; and one
over posts that are found nowhere is refused. -/
theorem chainAuditRoute_spec_losing :
    (losing.chainAudit true backingOffVideo).reply = .error .internalServerError ∧
    (losing.chainAudit true backingOffVideo).db.db.failures.rows = [] ∧
    InCategory asciiLower 0 (losing.chainAudit true backingOffVideo).db.audit "v" .b ∧
    (asking.chainAudit true { posts := backingOffVideo.posts }).reply
      = .error .unprocessableEntity := by
  obtain ⟨-, hsame, hfails, -⟩ := chainAuditRoute_spec losing true backingOffVideo
  obtain ⟨-, -, -, hrefused, -⟩ :=
    chainAuditRoute_spec asking true { posts := backingOffVideo.posts }
  have hb : InCategory asciiLower 0 backingOffVideo.audit "v" .b := by
    unfold InCategory
    decide
  exact ⟨hfails.mpr ⟨.clearPhashFailures, by decide, rfl⟩, by decide,
    (hsame 0 "v" .b).mpr hb, (hrefused (by decide)).mpr ⟨rfl, by decide⟩⟩

end VideoStorage.Chain
