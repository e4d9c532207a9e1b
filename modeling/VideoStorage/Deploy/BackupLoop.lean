import VideoStorage.Foundation.Pool

/-!
# The backup loop

`run_cycle` of `backup-loop.sh` runs on every node: where the local Patroni is the
primary and the bucket has no object for the day, it dumps the database, uploads the
dump and holds the size of the object against that of the dump. The dump's file
under `/tmp` is the cycle's own, so what is in it is passed on as a value.
-/

namespace VideoStorage.Deploy

open Foundation Prog

/-! ## The commands -/

structure BackupSettings where
  dbName : String := "video_fingerprint_index"
  retentionDays : ℕ := 30
  patroniWaitTries : ℕ := 30
  deriving DecidableEq, Repr

inductive BackupCall
  /-- `curl` on `/primary`. -/
  | primaryCode
  /-- `date -u +%Y%m%d` -/
  | date
  /-- `rclone lsf | grep -qx`, with the object's name for a pattern. -/
  | lsfGrep (obj : String)
  /-- `pg_dump`, which leaves a file of so many bytes. -/
  | pgDump
  /-- `wc -c` of such a file, if it prints the number. -/
  | wc (dump : ℕ)
  | copyto (dump : ℕ) (obj : String)
  /-- `rclone size`, to be held against the size of the file. -/
  | size (obj : String) (dump : ℕ)
  /-- `rclone delete --min-age` -/
  | delete (days : ℕ)
  deriving DecidableEq, Repr

@[reducible] def BackupCall.Reply : BackupCall → Type
  | .primaryCode => String
  | .date => String
  | .lsfGrep _ => Bool
  | .pgDump => Option ℕ
  | .wc _ => Bool
  | .copyto _ _ => Bool
  | .size _ _ => Option ℕ
  | .delete _ => Bool

abbrev Backup : Type → Type := Prog BackupCall BackupCall.Reply

abbrev BackupExchange : Type := Prog.Exchange BackupCall BackupCall.Reply

/-! ## A cycle -/

/-- The tries that are left, and the last code. -/
def waitForRole : ℕ → String → Backup String
  | 0, code => pure code
  | n + 1, _ => do
      let code ← issue BackupCall.primaryCode
      if code = "200" ∨ code = "503" then pure code else waitForRole n code

def objectName (cfg : BackupSettings) (date : String) : String :=
  cfg.dbName ++ "_" ++ date ++ ".dump"

/-- The branch without an object for the day, up to its status. -/
def dumpAndUpload (obj : String) : Backup ℕ := do
  match ← issue BackupCall.pgDump with
  | none => pure 1
  | some dump => do
      let printed ← issue (BackupCall.wc dump)
      let size := if printed then some dump else none
      if size.getD 0 < 1000 then pure 1
      else do
        match ← issue (BackupCall.copyto dump obj) with
        | false => pure 1
        | true => do
            let rsize ← issue (BackupCall.size obj dump)
            if rsize ≠ size then pure 1 else pure 0

/-- What `rclone delete` returns is only logged. -/
def prune (cfg : BackupSettings) : Backup ℕ := do
  let _ ← issue (BackupCall.delete cfg.retentionDays)
  pure 0

def runCycle (cfg : BackupSettings) : Backup ℕ := do
  match ← waitForRole cfg.patroniWaitTries "000" with
  | "200" => do
      let date ← issue BackupCall.date
      match ← issue (BackupCall.lsfGrep (objectName cfg date)) with
      | true => prune cfg
      | false => do
          let status ← dumpAndUpload (objectName cfg date)
          if status = 0 then prune cfg else pure status
  | "503" => pure 0
  | _ => pure 0

/-! ## The bucket -/

/-- The last object that was uploaded under a name: from a dump of how many bytes,
how many it has, whether a cycle was told that these are as many, and whether it has
been deleted. -/
structure Stored where
  dump : ℕ
  size : ℕ
  verified : Bool := false
  pruned : Bool := false
  deriving DecidableEq, Repr

/-- The size is told to a cycle that holds it against `n`. -/
def Stored.check (o : Stored) (n : ℕ) : Stored :=
  { o with verified := o.verified || (o.size = n && o.dump = n) }

abbrev Bucket : Type := String → Option Stored

def Bucket.put (w : Bucket) (obj : String) (o : Stored) : Bucket :=
  Function.update w obj (some o)

/-- How the commands are answered, with `grep` for the lines that a pattern matches
whole. Each may fail; an upload may leave an object although it fails, and one of
another size. -/
inductive Acts (grep : String → String → Bool) : Bucket → BackupExchange → Bucket → Prop
  | primaryCode (w : Bucket) (code : String) : Acts grep w ⟨.primaryCode, code⟩ w
  | date (w : Bucket) (date : String) : Acts grep w ⟨.date, date⟩ w
  | found {w : Bucket} {obj name : String} {o : Stored} (h : w name = some o)
      (hpruned : o.pruned = false) (hgrep : grep obj name = true) :
      Acts grep w ⟨.lsfGrep obj, true⟩ w
  | notFound (w : Bucket) (obj : String) : Acts grep w ⟨.lsfGrep obj, false⟩ w
  | pgDump (w : Bucket) (dump : Option ℕ) : Acts grep w ⟨.pgDump, dump⟩ w
  | wc (w : Bucket) (dump : ℕ) (printed : Bool) : Acts grep w ⟨.wc dump, printed⟩ w
  | uploaded (w : Bucket) (dump size : ℕ) (obj : String) (reply : Bool) :
      Acts grep w ⟨.copyto dump obj, reply⟩ (w.put obj { dump := dump, size := size })
  | notUploaded (w : Bucket) (dump : ℕ) (obj : String) :
      Acts grep w ⟨.copyto dump obj, false⟩ w
  | sized {w : Bucket} {obj : String} {o : Stored} (dump : ℕ) (h : w obj = some o)
      (hpruned : o.pruned = false) :
      Acts grep w ⟨.size obj dump, some o.size⟩ (w.put obj (o.check dump))
  | nothingThere {w : Bucket} {obj : String} (dump : ℕ)
      (h : ∀ o, w obj = some o → o.pruned = true) :
      Acts grep w ⟨.size obj dump, some 0⟩ w
  | notSized (w : Bucket) (obj : String) (dump : ℕ) :
      Acts grep w ⟨.size obj dump, none⟩ w
  | delete {w w' : Bucket} (days : ℕ) (reply : Bool)
      (h : ∀ obj, w' obj = w obj ∨
        ∃ o, w obj = some o ∧ w' obj = some { o with pruned := true }) :
      Acts grep w ⟨.delete days, reply⟩ w'

/-- Cycles on the nodes, as many at a time as there are. -/
def backupSystem (cfg : BackupSettings) (grep : String → String → Bool) :
    PoolSystem BackupCall BackupCall.Reply ℕ String Bucket Empty where
  body _ := runCycle cfg
  acts := Acts grep
  moves _ _ _ := False

abbrev BackupPool : Type := Pool BackupCall BackupCall.Reply ℕ String Bucket

abbrev BackupEvent : Type := PoolEvent BackupCall BackupCall.Reply String Empty

/-! ## What a cycle asks -/

/-- No command has to do with a dump of less than 1000 bytes once it was measured. -/
def LargeDump : BackupCall → Prop
  | .copyto dump _ => 1000 ≤ dump
  | .size _ dump => 1000 ≤ dump
  | _ => True

/-- The answer after which a cycle returns 0, and the object it is about. -/
inductive Decides : BackupExchange → String → Prop
  | found (obj : String) : Decides ⟨.lsfGrep obj, true⟩ obj
  | matched (obj : String) (dump : ℕ) : Decides ⟨.size obj dump, some dump⟩ obj

/-- The cycle has got that answer last. -/
def Relies (done : List BackupExchange) (obj : String) : Prop :=
  ∃ pre x, done = pre ++ [x] ∧ Decides x obj

section Cycle

variable {cfg : BackupSettings} {obj date : String} {tr : List BackupExchange} {status : ℕ}

theorem waitForRole_only (n : ℕ) (code : String) :
    (waitForRole n code).Only (· = .primaryCode) := by
  induction n generalizing code with
  | zero => exact only_ret code
  | succ n ih =>
      refine ⟨rfl, fun code => ?_⟩
      show (if code = "200" ∨ code = "503" then (pure code : Backup String)
        else waitForRole n code).Only _
      split
      · exact only_ret code
      · exact ih code

/-- A call after the day was read, which is read once. -/
def AfterDate (call : BackupCall) : Prop := LargeDump call ∧ call ≠ .date

theorem prune_only : (prune cfg).Only AfterDate :=
  ⟨⟨trivial, nofun⟩, fun _ => trivial⟩

theorem dumpAndUpload_only : (dumpAndUpload obj).Only AfterDate := by
  refine ⟨⟨trivial, nofun⟩, fun dump => ?_⟩
  cases dump with
  | none => exact only_ret 1
  | some dump =>
      refine ⟨⟨trivial, nofun⟩, fun printed => ?_⟩
      cases printed with
      | false => exact only_ret 1
      | true =>
          show (if dump < 1000 then (pure 1 : Backup ℕ) else _).Only AfterDate
          split
          · exact only_ret 1
          · rename_i hlarge
            have hdump : 1000 ≤ dump := Nat.le_of_not_lt hlarge
            refine ⟨⟨hdump, nofun⟩, fun copied => ?_⟩
            cases copied with
            | false => exact only_ret 1
            | true =>
                refine ⟨⟨hdump, nofun⟩, fun rsize => ?_⟩
                show (if rsize ≠ some dump then (pure 1 : Backup ℕ) else pure 0).Only _
                split
                · exact only_ret 1
                · exact only_ret 0

theorem prune_runs (h : Runs (prune cfg) tr status) :
    ∃ reply, tr = [⟨.delete cfg.retentionDays, reply⟩] := by
  simp only [prune, bind_eq, issue_bind, runs_call] at h
  obtain ⟨reply, tr, rfl, h⟩ := h
  obtain rfl := (runs_ret.mp h).1
  exact ⟨reply, rfl⟩

/-- The dump that was uploaded has the size of the object. -/
theorem dumpAndUpload_zero (h : Runs (dumpAndUpload obj) tr 0) : Relies tr obj := by
  simp only [dumpAndUpload, bind_eq, issue_bind, runs_call] at h
  obtain ⟨dump, tr, rfl, h⟩ := h
  cases dump with
  | none => cases (runs_ret.mp h).2
  | some dump =>
      dsimp only at h
      rw [runs_call] at h
      obtain ⟨printed, tr, rfl, h⟩ := h
      cases printed with
      | false => cases (runs_ret.mp h).2
      | true =>
          change Runs (if dump < 1000 then pure 1 else _) _ _ at h
          split at h
          · cases (runs_ret.mp h).2
          · rw [runs_call] at h
            obtain ⟨copied, tr, rfl, h⟩ := h
            cases copied with
            | false => cases (runs_ret.mp h).2
            | true =>
                rw [runs_call] at h
                obtain ⟨rsize, tr, rfl, h⟩ := h
                change Runs (if rsize ≠ some dump then pure 1 else pure 0) _ _ at h
                split at h
                · cases (runs_ret.mp h).2
                · rename_i hsize
                  obtain rfl : rsize = some dump := not_not.mp hsize
                  obtain rfl := (runs_ret.mp h).1
                  exact ⟨[_, _, _], _, rfl, .matched obj dump⟩

theorem uploadAndPrune_zero (h : Runs (dumpAndUpload obj >>= fun status =>
      if status = 0 then prune cfg else pure status) tr 0) :
    (∀ x ∈ tr, AfterDate x.1) ∧
      ∃ done reply, tr = done ++ [⟨.delete cfg.retentionDays, reply⟩] ∧ Relies done obj := by
  rw [bind_eq, runs_bind] at h
  obtain ⟨status, tr₁, tr₂, rfl, hstatus, h⟩ := h
  split at h
  · rename_i hzero
    subst hzero
    refine ⟨fun x hx => (List.mem_append.mp hx).elim
      (dumpAndUpload_only.runs hstatus x) (prune_only.runs h x), ?_⟩
    obtain ⟨reply, rfl⟩ := prune_runs h
    exact ⟨tr₁, reply, rfl, dumpAndUpload_zero hstatus⟩
  · rename_i hzero
    exact absurd (runs_ret.mp h).2.symm hzero

/-- The day that was read is the day of the object. -/
theorem day_read {date' : String} {present : Bool} (hafter : ∀ x ∈ tr, AfterDate x.1)
    (hmem : ⟨.date, date⟩ ∈ (⟨.date, date'⟩ : BackupExchange) ::
      ⟨.lsfGrep obj, present⟩ :: tr) : date = date' := by
  rcases List.mem_cons.mp hmem with heq | hmem
  · cases heq
    rfl
  · rcases List.mem_cons.mp hmem with heq | hmem
    · cases heq
    · exact absurd rfl (hafter _ hmem).2

theorem Relies.after {pre done : List BackupExchange} (h : Relies done obj) :
    Relies (pre ++ done) obj := by
  obtain ⟨pre', x, rfl, hx⟩ := h
  exact ⟨pre ++ pre', x, (List.append_assoc _ _ _).symm, hx⟩

/-- **A cycle that returns 0** after the role check has found its object or was told
its size, and has pruned. -/
theorem runCycle_zero (hrun : Runs (runCycle cfg) tr 0) (hdate : ⟨.date, date⟩ ∈ tr) :
    ∃ done reply, tr = done ++ [⟨.delete cfg.retentionDays, reply⟩] ∧
      Relies done (objectName cfg date) := by
  rw [runCycle, bind_eq, runs_bind] at hrun
  obtain ⟨role, tr₁, tr₂, rfl, hrole, h⟩ := hrun
  have hnone : (⟨.date, date⟩ : BackupExchange) ∉ tr₁ := by
    intro hmem
    cases (waitForRole_only _ _).runs hrole _ hmem
  have hmem : ⟨.date, date⟩ ∈ tr₂ := (List.mem_append.mp hdate).resolve_left hnone
  split at h
  · simp only [bind_eq, issue_bind, runs_call] at h
    obtain ⟨date', _, rfl, present, tr, rfl, h⟩ := h
    cases present with
    | true =>
        obtain rfl := day_read (prune_only.runs h) hmem
        obtain ⟨reply, rfl⟩ := prune_runs h
        exact ⟨tr₁ ++ [⟨.date, date⟩, ⟨.lsfGrep _, true⟩], reply, by simp,
          Relies.after ⟨[⟨.date, date⟩], _, rfl, .found _⟩⟩
    | false =>
        obtain ⟨hafter, done, reply, rfl, hrelies⟩ := uploadAndPrune_zero h
        obtain rfl := day_read hafter hmem
        exact ⟨tr₁ ++ ([⟨.date, date⟩, ⟨.lsfGrep (objectName cfg date), false⟩] ++ done),
          reply, by simp, hrelies.after.after⟩
  · obtain rfl := (runs_ret.mp h).1
    cases hmem
  · obtain rfl := (runs_ret.mp h).1
    cases hmem

/-- The last thing done was an upload of that dump. -/
def Uploaded (done : List BackupExchange) (dump : ℕ) (obj : String) : Prop :=
  ∃ pre, done = pre ++ [⟨.copyto dump obj, true⟩]

theorem uploaded_snoc {done : List BackupExchange} {x : BackupExchange} {dump : ℕ} :
    Uploaded (done ++ [x]) dump obj ↔ x = ⟨.copyto dump obj, true⟩ := by
  constructor
  · rintro ⟨pre, heq⟩
    obtain ⟨-, hx⟩ := List.append_inj' heq rfl
    exact List.singleton_inj.mp hx
  · rintro rfl
    exact ⟨done, rfl⟩

theorem not_uploaded_nil {dump : ℕ} : ¬ Uploaded [] dump obj := by
  rintro ⟨pre, heq⟩
  exact List.append_ne_nil_of_right_ne_nil pre (List.cons_ne_nil _ _) heq.symm

/-- Dumps are large, and the size is asked right after the upload, only and
always. -/
def CycleCall (done : List BackupExchange) (call : BackupCall) : Prop :=
  LargeDump call ∧ ∀ dump obj, Uploaded done dump obj ↔ call = .size obj dump

/-- A call that has to do with no upload, after another one. -/
theorem cycleCall_snoc {done : List BackupExchange} {x : BackupExchange}
    {call : BackupCall} (hlarge : LargeDump call)
    (hx : ∀ dump obj, x ≠ ⟨.copyto dump obj, true⟩)
    (hcall : ∀ dump obj, call ≠ .size obj dump) : CycleCall (done ++ [x]) call := by
  refine ⟨hlarge, fun dump obj => iff_of_false ?_ (hcall dump obj)⟩
  exact fun h => hx dump obj (uploaded_snoc.mp h)

theorem waitForRole_obeys {done : List BackupExchange} (n : ℕ) (code : String)
    (hdone : ∀ dump obj, ¬ Uploaded done dump obj) :
    (waitForRole n code).Obeys CycleCall done := by
  induction n generalizing code done with
  | zero => trivial
  | succ n ih =>
      refine ⟨⟨trivial, fun dump obj => iff_of_false (hdone dump obj) nofun⟩,
        fun code => ?_⟩
      show Prog.Obeys CycleCall _ (if code = "200" ∨ code = "503" then
        (pure code : Backup String) else waitForRole n code)
      split
      · trivial
      · refine ih code fun dump obj h => ?_
        cases uploaded_snoc.mp h

theorem prune_obeys {done : List BackupExchange} {x : BackupExchange}
    (hx : ∀ dump obj, x ≠ ⟨.copyto dump obj, true⟩) :
    (prune cfg).Obeys CycleCall (done ++ [x]) :=
  ⟨cycleCall_snoc trivial hx nofun, fun _ => trivial⟩

theorem dumpAndUpload_obeys {done : List BackupExchange} {x : BackupExchange}
    (hx : ∀ dump obj, x ≠ ⟨.copyto dump obj, true⟩) :
    (dumpAndUpload obj).Obeys CycleCall (done ++ [x]) := by
  refine ⟨cycleCall_snoc trivial hx nofun, fun dump => ?_⟩
  cases dump with
  | none => trivial
  | some dump =>
      refine ⟨cycleCall_snoc trivial nofun nofun, fun printed => ?_⟩
      cases printed with
      | false => trivial
      | true =>
          show Prog.Obeys CycleCall _ (if dump < 1000 then (pure 1 : Backup ℕ) else _)
          split
          · trivial
          · rename_i hlarge
            have hdump : 1000 ≤ dump := Nat.le_of_not_lt hlarge
            refine ⟨cycleCall_snoc hdump nofun nofun, fun copied => ?_⟩
            cases copied with
            | false => trivial
            | true =>
                refine ⟨⟨hdump, fun dump' obj' => ?_⟩, fun rsize => ?_⟩
                · rw [uploaded_snoc]
                  constructor
                  · rintro ⟨⟩
                    rfl
                  · rintro ⟨⟩
                    rfl
                · show Prog.Obeys CycleCall _
                    (if rsize ≠ some dump then (pure 1 : Backup ℕ) else pure 0)
                  split <;> trivial

theorem Relies.not_upload {done : List BackupExchange} (h : Relies done obj) :
    ∃ pre x, done = pre ++ [x] ∧ ∀ dump obj, x ≠ ⟨.copyto dump obj, true⟩ := by
  obtain ⟨pre, x, rfl, hx⟩ := h
  refine ⟨pre, x, rfl, ?_⟩
  cases hx with
  | found => exact nofun
  | matched => exact nofun

/-- **The calls of a cycle.** -/
theorem runCycle_obeys : (runCycle cfg).Obeys CycleCall [] := by
  refine (waitForRole_obeys _ _ fun _ _ => not_uploaded_nil).bind fun tr role hrole => ?_
  have hroles := (waitForRole_only _ _).runs hrole
  have hnone : ∀ dump obj, ¬ Uploaded ([] ++ tr) dump obj := by
    rintro dump obj ⟨pre, rfl⟩
    cases hroles _ (List.mem_append_right _ (List.mem_singleton_self _))
  split
  · refine ⟨⟨trivial, fun dump obj => iff_of_false (hnone dump obj) nofun⟩,
      fun date => ⟨cycleCall_snoc trivial nofun nofun, fun present => ?_⟩⟩
    have hlisted : ∀ dump obj, (⟨.lsfGrep (objectName cfg date), present⟩ :
        BackupExchange) ≠ ⟨.copyto dump obj, true⟩ := by
      intro dump obj h
      cases h
    cases present with
    | true => exact prune_obeys hlisted
    | false =>
        refine (dumpAndUpload_obeys hlisted).bind fun tr' status hstatus => ?_
        split
        · rename_i hzero
          subst hzero
          obtain ⟨pre, x, rfl, hx⟩ := (dumpAndUpload_zero hstatus).not_upload
          rw [← List.append_assoc]
          exact prune_obeys hx
        · trivial
  · trivial
  · trivial

end Cycle

end VideoStorage.Deploy
