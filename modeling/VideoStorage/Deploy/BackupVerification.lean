import VideoStorage.Deploy.BackupLoop

/-!
# Backups that were verified

A cycle that finds an object for its day takes it for a backup, whatever became of
the cycle that uploaded it. Where every upload that leaves an object is told its size
in its cycle, and the cycles keep apart, what is found was verified (`Verified`), by
the cycle or one before it; else a failed verification is never retried.
-/

namespace VideoStorage.Deploy

open Foundation Prog

variable {cfg : BackupSettings} {grep : String → String → Bool} {s s' : BackupPool}
  {e : BackupEvent} {t : ℕ} {w w' : Bucket} {x : BackupExchange} {obj : String}

/-! ## What is promised -/

/-- The object came from a dump of 1000 bytes at least, and a cycle was told that it
has as many. -/
def Backed (w : Bucket) (obj : String) : Prop :=
  ∃ o, w obj = some o ∧ o.verified = true ∧ 1000 ≤ o.dump

/-- If the cycle has returned 0 and read the day, then the day is backed up. -/
def Kept (cfg : BackupSettings) (s : BackupPool) (t : ℕ) : Prop :=
  ∀ task date, s.tasks t = some task → task.rest = .ret 0 →
    ⟨.date, date⟩ ∈ task.done → Backed s.world (objectName cfg date)

/-- Nothing has begun, and what is in the bucket was verified. -/
structure Fresh (s : BackupPool) : Prop where
  idle : s.tasks = fun _ => none
  verified : ∀ obj o, s.world obj = some o → o.verified = true ∧ 1000 ≤ o.dump

/-- The storage does what it is told: an upload that leaves an object reports it and
leaves all of it, its size is told when it is asked for, and the pattern of a listing
matches no other name. -/
structure Reliable (grep : String → String → Bool) (w : Bucket) (x : BackupExchange)
    (w' : Bucket) : Prop where
  arrives : ∀ dump obj, x = ⟨.copyto dump obj, true⟩ →
    w' obj = some { dump := dump, size := dump }
  leavesNothing : ∀ dump obj, x = ⟨.copyto dump obj, false⟩ → w' = w
  answers : ∀ obj dump reply, x = ⟨.size obj dump, reply⟩ →
    ∀ o, w obj = some o → reply = some o.size
  named : ∀ obj name o, x = ⟨.lsfGrep obj, true⟩ → w name = some o →
    grep obj name = true → name = obj

/-- The cycles keep apart: none finds its object while another one, which uploaded it,
has yet to be told its size, and none uploads it then, nor while another one is about
to return 0 for it. -/
structure Apart (s : BackupPool) (e : BackupEvent) : Prop where
  finding : ∀ t obj, e = .call t ⟨.lsfGrep obj, true⟩ →
    ∀ u task dump, s.tasks u = some task → ¬ Uploaded task.done dump obj
  uploading : ∀ t dump obj, e = .call t ⟨.copyto dump obj, true⟩ →
    ∀ u task, s.tasks u = some task →
      ¬ Relies task.done obj ∧ ∀ dump, ¬ Uploaded task.done dump obj

/-- A step that meets both. -/
def Orderly (grep : String → String → Bool) (s : BackupPool) (e : BackupEvent)
    (s' : BackupPool) : Prop :=
  (∀ t x, e = .call t x → Reliable grep s.world x s'.world) ∧ Apart s e

/-! ## The bucket -/

/-- What was verified came from a large dump. -/
def LargeVerified (w : Bucket) : Prop :=
  ∀ obj o, w obj = some o → o.verified = true → 1000 ≤ o.dump

theorem put_eq_some {o o' : Stored} {name : String} (h : w.put obj o name = some o') :
    (name = obj ∧ o' = o) ∨ (name ≠ obj ∧ w name = some o') := by
  by_cases hname : name = obj
  · subst hname
    rw [Bucket.put, Function.update_self] at h
    exact .inl ⟨rfl, (Option.some.inj h).symm⟩
  · rw [Bucket.put, Function.update_of_ne hname] at h
    exact .inr ⟨hname, h⟩

theorem check_verified {o : Stored} {n : ℕ} (h : (o.check n).verified = true) :
    o.verified = true ∨ o.dump = n := by
  simp only [Stored.check, Bool.or_eq_true, Bool.and_eq_true, decide_eq_true_eq] at h
  exact h.imp_right fun h => h.2

/-- **Where an object comes from**: it is being uploaded, or it was there. -/
theorem Acts.object {o : Stored} (h : Acts grep w x w') (ho : w' obj = some o) :
    (∃ dump size reply, x = ⟨.copyto dump obj, reply⟩ ∧ o = { dump := dump, size := size }) ∨
      ∃ o', w obj = some o' ∧ o.dump = o'.dump ∧ (o'.verified = true → o.verified = true) ∧
        (o.verified = true → o'.verified = true ∨ ∃ reply, x = ⟨.size obj o.dump, reply⟩) := by
  cases h with
  | uploaded dump size name reply =>
      rcases put_eq_some ho with ⟨rfl, rfl⟩ | ⟨-, ho⟩
      · exact .inl ⟨dump, size, reply, rfl, rfl⟩
      · exact .inr ⟨o, ho, rfl, id, .inl⟩
  | @sized name o' dump hname hpruned =>
      rcases put_eq_some ho with ⟨rfl, rfl⟩ | ⟨-, ho⟩
      · refine .inr ⟨o', hname, rfl, fun h => by simp [Stored.check, h],
          fun hverified => ?_⟩
        rcases check_verified hverified with hverified | rfl
        · exact .inl hverified
        · exact .inr ⟨_, rfl⟩
      · exact .inr ⟨o, ho, rfl, id, .inl⟩
  | delete days reply hdelete =>
      rcases hdelete obj with hsame | ⟨o', ho', hpruned⟩
      · exact .inr ⟨o, hsame ▸ ho, rfl, id, .inl⟩
      · cases hpruned.symm.trans ho
        exact .inr ⟨o', ho', rfl, id, .inl⟩
  | _ => exact .inr ⟨o, ho, rfl, id, .inl⟩

/-- An object of so many bytes, from a dump of as many. -/
def Intact (w : Bucket) (obj : String) (n : ℕ) : Prop :=
  ∃ o, w obj = some o ∧ o.dump = n ∧ o.size = n

/-- Only another upload changes it. -/
theorem Acts.intact {n : ℕ} (h : Acts grep w x w') (hw : Intact w obj n)
    (hspared : ∀ dump reply, x = ⟨.copyto dump obj, reply⟩ → w' = w) :
    Intact w' obj n := by
  obtain ⟨o, ho, hdump, hsize⟩ := hw
  cases h with
  | uploaded dump size name reply =>
      by_cases hname : obj = name
      · subst hname
        rw [hspared dump reply rfl]
        exact ⟨o, ho, hdump, hsize⟩
      · refine ⟨o, ?_, hdump, hsize⟩
        rw [Bucket.put, Function.update_of_ne hname]
        exact ho
  | @sized name o' dump hobj hpruned =>
      by_cases hname : obj = name
      · subst hname
        cases hobj.symm.trans ho
        refine ⟨o.check dump, ?_, hdump, hsize⟩
        rw [Bucket.put, Function.update_self]
      · refine ⟨o, ?_, hdump, hsize⟩
        rw [Bucket.put, Function.update_of_ne hname]
        exact ho
  | delete days reply hdelete =>
      rcases hdelete obj with hsame | ⟨o', ho', hpruned⟩
      · exact ⟨o, hsame.trans ho, hdump, hsize⟩
      · cases ho'.symm.trans ho
        exact ⟨_, hpruned, hdump, hsize⟩
  | _ => exact ⟨o, ho, hdump, hsize⟩

/-- Its size is told, and makes it a verified one. -/
theorem Acts.told {n : ℕ} {reply : Option ℕ} (h : Acts grep w ⟨.size obj n, reply⟩ w')
    (hw : Intact w obj n) (hn : n ≠ 0)
    (hanswers : ∀ o, w obj = some o → reply = some o.size) {o : Stored}
    (ho : w' obj = some o) : o.verified = true := by
  obtain ⟨o₀, ho₀, hdump, hsize⟩ := hw
  have hreply := hanswers o₀ ho₀
  cases h with
  | @sized _ o₁ _ hobj hpruned =>
      cases hobj.symm.trans ho₀
      rw [Bucket.put, Function.update_self] at ho
      cases ho
      simp [Stored.check, hsize, hdump]
  | nothingThere _ hnone =>
      have hzero : 0 = o₀.size := Option.some.inj hreply
      omega
  | notSized _ _ => cases hreply

theorem Acts.largeVerified (h : Acts grep w x w') (hcall : LargeDump x.1)
    (hw : LargeVerified w) : LargeVerified w' := by
  intro name o ho hverified
  rcases h.object ho with ⟨dump, size, reply, rfl, rfl⟩ | ⟨o', ho', hdump, -, hsized⟩
  · cases hverified
  · rcases hsized hverified with hverified | ⟨reply, rfl⟩
    · exact hdump ▸ hw name o' ho' hverified
    · exact hcall

/-- Only an upload takes the verified object away. -/
theorem Acts.backed (h : Acts grep w x w') (hw : Backed w obj)
    (hspared : ∀ dump reply, x = ⟨.copyto dump obj, reply⟩ → w' = w) : Backed w' obj := by
  obtain ⟨o, ho, hverified, hdump⟩ := hw
  cases h with
  | uploaded dump size name reply =>
      by_cases hname : obj = name
      · subst hname
        rw [hspared dump reply rfl]
        exact ⟨o, ho, hverified, hdump⟩
      · refine ⟨o, ?_, hverified, hdump⟩
        rw [Bucket.put, Function.update_of_ne hname]
        exact ho
  | @sized name o' dump hobj hpruned =>
      by_cases hname : obj = name
      · subst hname
        cases hobj.symm.trans ho
        refine ⟨o.check dump, ?_, ?_, hdump⟩
        · rw [Bucket.put, Function.update_self]
        · simp [Stored.check, hverified]
      · refine ⟨o, ?_, hverified, hdump⟩
        rw [Bucket.put, Function.update_of_ne hname]
        exact ho
  | delete days reply hdelete =>
      rcases hdelete obj with hsame | ⟨o', ho', hpruned⟩
      · exact ⟨o, hsame.trans ho, hverified, hdump⟩
      · cases ho'.symm.trans ho
        exact ⟨_, hpruned, hverified, hdump⟩
  | _ => exact ⟨o, ho, hverified, hdump⟩

/-- The answer on which a cycle returns 0 is about a verified object. -/
theorem Acts.decides (h : Acts grep w x w') (hx : Decides x obj) (hw : LargeVerified w)
    (hcall : LargeDump x.1)
    (hfound : x = ⟨.lsfGrep obj, true⟩ → ∃ o, w obj = some o ∧ o.verified = true)
    (hmatched : ∀ dump, x = ⟨.size obj dump, some dump⟩ →
      ∀ o, w obj = some o → o.dump = dump) : Backed w' obj := by
  cases hx with
  | found obj =>
      obtain ⟨o, ho, hverified⟩ := hfound rfl
      cases h with
      | found _ _ _ => exact ⟨o, ho, hverified, hw obj o ho hverified⟩
  | matched obj dump =>
      generalize hreply : some dump = reply at h
      cases h with
      | @sized _ o _ hobj hpruned =>
          have hsize : o.size = dump := (Option.some.inj hreply).symm
          have hdump : o.dump = dump := hmatched dump rfl o hobj
          refine ⟨o.check dump, ?_, ?_, ?_⟩
          · rw [Bucket.put, Function.update_self]
          · simp [Stored.check, hsize, hdump]
          · exact hdump ▸ hcall
      | nothingThere _ hnone =>
          have hzero : dump = 0 := Option.some.inj hreply
          subst hzero
          cases hcall
      | notSized _ _ => cases hreply

/-! ## Runs -/

/-- What holds between two steps: an object was verified or is just being uploaded,
all of it; what was verified came from a large dump; and what a cycle relies on was
verified. -/
structure Verified (cfg : BackupSettings) (grep : String → String → Bool)
    (s : BackupPool) : Prop where
  faithful : Pool.Faithful (backupSystem cfg grep) s
  large : LargeVerified s.world
  settled : ∀ obj o, s.world obj = some o → o.verified = true ∨
    ∃ t task, s.tasks t = some task ∧ Uploaded task.done o.dump obj
  intact : ∀ t task obj dump, s.tasks t = some task → Uploaded task.done dump obj →
    Intact s.world obj dump
  relied : ∀ t task obj, s.tasks t = some task → Relies task.done obj →
    Backed s.world obj

theorem not_relies_nil : ¬ Relies [] obj := by
  rintro ⟨pre, x, h, -⟩
  exact List.append_ne_nil_of_right_ne_nil pre (List.cons_ne_nil x []) h.symm

theorem relies_snoc {done : List BackupExchange} :
    Relies (done ++ [x]) obj ↔ Decides x obj := by
  constructor
  · rintro ⟨pre, y, heq, hy⟩
    obtain ⟨-, hxy⟩ := List.append_inj' heq rfl
    cases hxy
    exact hy
  · exact fun hx => ⟨done, x, rfl, hx⟩

theorem Fresh.start (h : Fresh s) : Verified cfg grep s where
  faithful := .of_idle h.idle
  large obj o ho _ := (h.verified obj o ho).2
  settled obj o ho := .inl (h.verified obj o ho).1
  intact t task obj dump ht := by
    rw [h.idle] at ht
    cases ht
  relied t task obj ht := by
    rw [h.idle] at ht
    cases ht

section Call

variable {task : Task BackupCall BackupCall.Reply ℕ String} {call : BackupCall}
  {k : call.Reply → Backup ℕ} {reply : call.Reply}

/-- The next call of a cycle fits what it has done. -/
theorem Verified.cycleCall (hs : Verified cfg grep s) (ht : s.tasks t = some task)
    (hrest : task.rest = .call call k) : CycleCall task.done call := by
  have hobeys := (hs.faithful t task ht).obeys runCycle_obeys
  rw [hrest] at hobeys
  exact hobeys.1

/-- An object that is there is verified, or another cycle has yet to be told its
size. -/
theorem Verified.settled_other (hs : Verified cfg grep s) (ht : s.tasks t = some task)
    (hrest : task.rest = .call call k) {o : Stored} (ho : s.world obj = some o)
    (hcall : call ≠ .size obj o.dump) : o.verified = true ∨
      ∃ u other, u ≠ t ∧ s.tasks u = some other ∧ Uploaded other.done o.dump obj := by
  refine (hs.settled obj o ho).imp_right ?_
  rintro ⟨u, other, hu, huploaded⟩
  refine ⟨u, other, ?_, hu, huploaded⟩
  rintro rfl
  cases ht.symm.trans hu
  exact hcall (((hs.cycleCall ht hrest).2 _ _).mp huploaded)

/-- **A call** leaves every object verified or just uploaded. -/
theorem Verified.settled_call (hs : Verified cfg grep s) (ht : s.tasks t = some task)
    (hrest : task.rest = .call call k) (hact : Acts grep s.world ⟨call, reply⟩ w)
    (hreliable : Reliable grep s.world ⟨call, reply⟩ w) {q : Backup ℕ} {o : Stored}
    (ho : w obj = some o) : o.verified = true ∨
      ∃ u other, Function.update s.tasks t
          (some ⟨task.request, task.done ++ [⟨call, reply⟩], q⟩) u = some other ∧
        Uploaded other.done o.dump obj := by
  have hkept : ∀ u other, u ≠ t → s.tasks u = some other →
      Function.update s.tasks t
        (some ⟨task.request, task.done ++ [⟨call, reply⟩], q⟩) u = some other := by
    intro u other hne hu
    rw [Function.update_of_ne hne]
    exact hu
  have hcycle := hs.cycleCall ht hrest
  rcases hact.object ho with ⟨dump, size, r, hx, rfl⟩ | ⟨o', ho', hdump, hmono, -⟩
  · cases hx
    cases r with
    | true =>
        exact .inr ⟨t, _, Function.update_self _ _ _, uploaded_snoc.mpr rfl⟩
    | false =>
        -- nothing was left: the object was there before
        rw [hreliable.leavesNothing _ _ rfl] at ho
        refine (hs.settled_other ht hrest ho nofun).imp_right ?_
        rintro ⟨u, other, hne, hu, huploaded⟩
        exact ⟨u, other, hkept u other hne hu, huploaded⟩
  · by_cases hcall : call = .size obj o'.dump
    · subst hcall
      have huploaded := (hcycle.2 o'.dump obj).mpr rfl
      have hlarge : 1000 ≤ o'.dump := hcycle.1
      exact .inl (hact.told (hs.intact t task obj _ ht huploaded) (by omega)
        (hreliable.answers obj _ reply rfl) ho)
    · rcases hs.settled_other ht hrest ho' hcall with hverified | ⟨u, other, hne, hu, hup⟩
      · exact .inl (hmono hverified)
      · exact .inr ⟨u, other, hkept u other hne hu, hdump ▸ hup⟩

/-- What another cycle has to do with is not uploaded over. -/
theorem Apart.spared {u : ℕ} {other : Task BackupCall BackupCall.Reply ℕ String}
    (hapart : Apart s (.call t ⟨call, reply⟩))
    (hreliable : Reliable grep s.world ⟨call, reply⟩ w) (hu : s.tasks u = some other)
    (hother : Relies other.done obj ∨ ∃ dump, Uploaded other.done dump obj) :
    ∀ dump r, (⟨call, reply⟩ : BackupExchange) = ⟨.copyto dump obj, r⟩ → w = s.world := by
  rintro dump r heq
  cases heq
  cases r with
  | false => exact hreliable.leavesNothing dump obj rfl
  | true =>
      obtain ⟨hnot, hnone⟩ := hapart.uploading t dump obj rfl u other hu
      rcases hother with hrelies | ⟨dump', hup⟩
      · exact absurd hrelies hnot
      · exact absurd hup (hnone dump')

/-- **A call** on whose answer a cycle relies is about a verified object. -/
theorem Verified.relied_call (hs : Verified cfg grep s) (ht : s.tasks t = some task)
    (hrest : task.rest = .call call k) (hact : Acts grep s.world ⟨call, reply⟩ w)
    (hreliable : Reliable grep s.world ⟨call, reply⟩ w)
    (hapart : Apart s (.call t ⟨call, reply⟩))
    (hrelies : Relies (task.done ++ [⟨call, reply⟩]) obj) : Backed w obj := by
  have hcycle := hs.cycleCall ht hrest
  refine hact.decides (relies_snoc.mp hrelies) hs.large hcycle.1 ?_ ?_
  · rintro ⟨⟩
    -- what is found was verified, in this cycle or one before it
    generalize hx : (⟨.lsfGrep obj, true⟩ : BackupExchange) = x at hact
    cases hact with
    | found hname hpruned hgrep =>
        cases hx
        obtain rfl := hreliable.named _ _ _ rfl hname hgrep
        refine ⟨_, hname, (hs.settled _ _ hname).resolve_right ?_⟩
        rintro ⟨v, other, hv, hup⟩
        exact hapart.finding t _ rfl v other _ hv hup
    | _ => cases hx
  · rintro dump ⟨⟩ o ho
    have hup := (hcycle.2 dump obj).mpr rfl
    obtain ⟨o', ho', hdump, -⟩ := hs.intact t task obj dump ht hup
    cases ho'.symm.trans ho
    exact hdump

end Call

/-- **One step.** -/
theorem Verified.step (hs : Verified cfg grep s)
    (h : Pool.Step (backupSystem cfg grep) s e s') (horderly : Orderly grep s e s') :
    Verified cfg grep s' := by
  have hfaithful := hs.faithful.step h
  cases h with
  | start t node hfree =>
      refine ⟨hfaithful, hs.large, fun obj o ho => ?_, fun u task obj dump hu hup => ?_,
        fun u task obj hu hrelies => ?_⟩
      · refine (hs.settled obj o ho).imp_right ?_
        rintro ⟨u, task, hu, huploaded⟩
        refine ⟨u, task, ?_, huploaded⟩
        have hne : u ≠ t := by
          rintro rfl
          rw [hfree] at hu
          cases hu
        dsimp only
        rw [Function.update_of_ne hne]
        exact hu
      · rcases Pool.tasks_update hu with ⟨-, rfl⟩ | ⟨-, hu⟩
        · exact absurd hup not_uploaded_nil
        · exact hs.intact u task obj dump hu hup
      · rcases Pool.tasks_update hu with ⟨-, rfl⟩ | ⟨-, hu⟩
        · exact absurd hrelies not_relies_nil
        · exact hs.relied u task obj hu hrelies
  | @call w t task call k reply ht hrest hact =>
      have hreliable := horderly.1 t _ rfl
      have hapart := horderly.2
      refine ⟨hfaithful, hact.largeVerified (hs.cycleCall ht hrest).1 hs.large,
        fun obj o ho => hs.settled_call ht hrest hact hreliable ho,
        fun u other obj dump hu hup => ?_, fun u other obj hu hrelies => ?_⟩
      · rcases Pool.tasks_update hu with ⟨-, rfl⟩ | ⟨-, hbefore⟩
        · have hx := uploaded_snoc.mp hup
          exact ⟨_, hreliable.arrives dump obj hx, rfl, rfl⟩
        · exact hact.intact (hs.intact u other obj dump hbefore hup)
            (hapart.spared hreliable hbefore (.inr ⟨dump, hup⟩))
      · rcases Pool.tasks_update hu with ⟨-, rfl⟩ | ⟨-, hbefore⟩
        · exact hs.relied_call ht hrest hact hreliable hapart hrelies
        · exact hact.backed (hs.relied u other obj hbefore hrelies)
            (hapart.spared hreliable hbefore (.inl hrelies))
  | outside l hmove => cases hmove

/-- A cycle that returns 0 with this step has pruned after it found its object or
was told its size. -/
theorem Verified.kept (hs : Verified cfg grep s)
    (h : Pool.Step (backupSystem cfg grep) s (.call t x) s') : Kept cfg s' t := by
  intro task' date ht' hreturned hdate
  have hafter := hs.faithful.step h t task' ht'
  rw [hreturned] at hafter
  obtain ⟨done, reply, hdone, hrelies⟩ := runCycle_zero hafter.ret hdate
  cases h with
  | call _ task call k r ht hrest hact =>
      dsimp only at ht'
      rw [Function.update_self] at ht'
      cases ht'
      obtain ⟨rfl, hlast⟩ := List.append_inj' hdone rfl
      cases hlast
      refine hact.backed (hs.relied t task _ ht hrelies) ?_
      rintro dump reply ⟨⟩

/-- **Backups are verified** in every run of orderly steps: when a cycle returns 0,
there is for its day an object from a dump of 1000 bytes at least that was verified
to have as many. -/
theorem backup_kept (es : List BackupEvent) (hs : Fresh s)
    (hrun : Trace (fun a e b => Pool.Step (backupSystem cfg grep) a e b ∧
      Orderly grep a e b) s (es ++ [.call t x]) s') : Kept cfg s' t := by
  obtain ⟨s₁, hbefore, hlast⟩ := hrun.of_append
  have hverified := hbefore.invariant (Verified cfg grep)
    (fun _ _ _ ha hab => ha.step hab.1 hab.2) hs.start
  obtain ⟨s₂, hstep, hnil⟩ := hlast.cons_inv
  cases hnil
  exact hverified.kept hstep.1

/-! ## One day -/

/-- `grep -x` for a pattern whose only special character is the dot. -/
def grepDots (pattern line : String) : Bool :=
  pattern.toList.length = line.toList.length &&
    (pattern.toList.zip line.toList).all fun p => p.1 = '.' || p.1 = p.2

theorem grepDots_self (name : String) : grepDots name name = true := by
  have hall : ∀ cs : List Char, ((cs.zip cs).all fun p => p.1 = '.' || p.1 = p.2) = true := by
    intro cs
    induction cs with
    | nil => rfl
    | cons c cs ih => simp [ih]
  rw [grepDots, hall, decide_eq_true rfl]
  rfl

def day : String := objectName {} "20260101"

def emptyPool : BackupPool := ⟨fun _ => none, fun _ => none⟩

/-- The primary finds nothing for the day and goes as far as its upload. -/
def uploading (size : Option ℕ) : List BackupExchange :=
  [⟨.primaryCode, "200"⟩, ⟨.date, "20260101"⟩, ⟨.lsfGrep day, false⟩,
    ⟨.pgDump, some 5000⟩, ⟨.wc 5000, true⟩, ⟨.copyto 5000 day, true⟩,
    ⟨.size day 5000, size⟩]

/-- It finds the object. -/
def skipping : List BackupExchange :=
  [⟨.primaryCode, "200"⟩, ⟨.date, "20260101"⟩, ⟨.lsfGrep day, true⟩, ⟨.delete 30, true⟩]

theorem uploading_runs :
    Runs ((backupSystem {} grepDots).body "node-1") (uploading (some 100)) 1 :=
  .call (.call (.call (.call (.call (.call (.call (.ret _)))))))

theorem skipping_runs : Runs ((backupSystem {} grepDots).body "node-1") skipping 0 :=
  .call (.call (.call (.call (.ret _))))

theorem pruned_nothing (w : Bucket) : Acts grepDots w ⟨.delete 30, true⟩ w :=
  .delete 30 true fun _ => .inl rfl

/-- A cycle whose upload fails and leaves nothing. -/
def failing : List BackupExchange :=
  [⟨.primaryCode, "200"⟩, ⟨.date, "20260101"⟩, ⟨.lsfGrep day, false⟩,
    ⟨.pgDump, some 5000⟩, ⟨.wc 5000, true⟩, ⟨.copyto 5000 day, false⟩]

theorem failing_runs : Runs ((backupSystem {} grepDots).body "node-1") failing 1 :=
  .call (.call (.call (.call (.call (.call (.ret _))))))

/-- A cycle whose upload arrives. -/
def backingUp : List BackupExchange := uploading (some 5000) ++ [⟨.delete 30, true⟩]

theorem backingUp_runs : Runs ((backupSystem {} grepDots).body "node-1") backingUp 0 :=
  .call (.call (.call (.call (.call (.call (.call (.call (.ret _))))))))

/-- The same on a storage that is reliable. -/
def reliableSystem : PoolSystem BackupCall BackupCall.Reply ℕ String Bucket Empty :=
  { backupSystem {} grepDots with
    acts := fun w x w' => Acts grepDots w x w' ∧ Reliable grepDots w x w' }

theorem orderly_of_reliable {s s' : BackupPool}
    (h : Pool.Step reliableSystem s e s' ∧ Apart s e) :
    Pool.Step (backupSystem {} grepDots) s e s' ∧ Orderly grepDots s e s' := by
  obtain ⟨hstep, hapart⟩ := h
  cases hstep with
  | start t node hfree => exact ⟨.start t node hfree, nofun, hapart⟩
  | call t task call k reply ht hrest hact =>
      refine ⟨.call t task call k reply ht hrest hact.1, ?_, hapart⟩
      rintro _ _ ⟨⟩
      exact hact.2
  | outside l hmove => cases hmove

/-- A call that neither lists, uploads nor asks a size. -/
theorem reliable_other {call : BackupCall} {reply : call.Reply}
    (hcopy : ∀ dump obj, call ≠ .copyto dump obj) (hsize : ∀ obj dump, call ≠ .size obj dump)
    (hlist : ∀ obj, call ≠ .lsfGrep obj) : Reliable grep w ⟨call, reply⟩ w' where
  arrives dump obj h := absurd (congrArg Sigma.fst h) (hcopy dump obj)
  leavesNothing dump obj h := absurd (congrArg Sigma.fst h) (hcopy dump obj)
  answers obj dump _ h := absurd (congrArg Sigma.fst h) (hsize obj dump)
  named obj _ _ h := absurd (congrArg Sigma.fst h) (hlist obj)

theorem reliable_notListed : Reliable grep w ⟨.lsfGrep obj, false⟩ w where
  arrives _ _ h := by cases h
  leavesNothing _ _ h := by cases h
  answers _ _ _ h := by cases h
  named _ _ _ h := by cases h

theorem reliable_notUploaded : Reliable grep w ⟨.copyto 5000 obj, false⟩ w where
  arrives _ _ h := by cases h
  leavesNothing _ _ _ := rfl
  answers _ _ _ h := by cases h
  named _ _ _ h := by cases h

theorem reliable_uploaded :
    Reliable grep w ⟨.copyto 5000 obj, true⟩ (w.put obj ⟨5000, 5000, false, false⟩) where
  arrives dump obj h := by
    cases h
    exact Function.update_self _ _ _
  leavesNothing _ _ h := by cases h
  answers _ _ _ h := by cases h
  named _ _ _ h := by cases h

theorem reliable_sized {o : Stored} (ho : w obj = some o) :
    Reliable grep w ⟨.size obj 5000, some o.size⟩ w' where
  arrives _ _ h := by cases h
  leavesNothing _ _ h := by cases h
  answers _ _ _ h o' ho' := by
    cases h
    cases ho.symm.trans ho'
    rfl
  named _ _ _ h := by cases h

/-- With one object in the bucket a listing finds no other. -/
theorem reliable_listed {o : Stored} :
    Reliable grep (Bucket.put (fun _ => none) obj o) ⟨.lsfGrep obj, true⟩ w' where
  arrives _ _ h := by cases h
  leavesNothing _ _ h := by cases h
  answers _ _ _ h := by cases h
  named _ name o' h ho' _ := by
    cases h
    rcases put_eq_some ho' with ⟨rfl, -⟩ | ⟨-, hnone⟩
    · rfl
    · cases hnone

def backedUp : Bucket := Bucket.put (fun _ => none) day ⟨5000, 5000, true, false⟩

theorem backedUp_day : backedUp day = some ⟨5000, 5000, true, false⟩ := by
  rw [backedUp, Bucket.put, Function.update_self]

theorem failing_acts : Trace reliableSystem.acts (fun _ => none) failing (fun _ => none) :=
  .cons ⟨.primaryCode _ _, reliable_other nofun nofun nofun⟩ <|
  .cons ⟨.date _ _, reliable_other nofun nofun nofun⟩ <|
  .cons ⟨.notFound _ _, reliable_notListed⟩ <|
  .cons ⟨.pgDump _ _, reliable_other nofun nofun nofun⟩ <|
  .cons ⟨.wc _ _ _, reliable_other nofun nofun nofun⟩ <|
  .cons ⟨.notUploaded _ _ _, reliable_notUploaded⟩ <| .nil _

theorem backingUp_acts : Trace reliableSystem.acts (fun _ => none) backingUp backedUp := by
  have hput : Bucket.put (Bucket.put (fun _ => none) day ⟨5000, 5000, false, false⟩) day
      ⟨5000, 5000, true, false⟩ = backedUp := Function.update_idem _ _ _
  rw [← hput]
  exact .cons ⟨.primaryCode _ _, reliable_other nofun nofun nofun⟩ <|
    .cons ⟨.date _ _, reliable_other nofun nofun nofun⟩ <|
    .cons ⟨.notFound _ _, reliable_notListed⟩ <|
    .cons ⟨.pgDump _ _, reliable_other nofun nofun nofun⟩ <|
    .cons ⟨.wc _ _ _, reliable_other nofun nofun nofun⟩ <|
    .cons ⟨.uploaded _ 5000 5000 day true, reliable_uploaded⟩ <|
    .cons ⟨.sized 5000 (Function.update_self _ _ _) rfl,
      reliable_sized (o := ⟨5000, 5000, false, false⟩) (Function.update_self _ _ _)⟩ <|
    .cons ⟨pruned_nothing _, reliable_other nofun nofun nofun⟩ <| .nil _

theorem skipping_reliable : Trace reliableSystem.acts backedUp skipping backedUp :=
  .cons ⟨.primaryCode _ _, reliable_other nofun nofun nofun⟩ <|
  .cons ⟨.date _ _, reliable_other nofun nofun nofun⟩ <|
  .cons ⟨.found backedUp_day rfl (grepDots_self day), reliable_listed⟩ <|
  .cons ⟨pruned_nothing _, reliable_other nofun nofun nofun⟩ <| .nil _

/-- Who did not upload is not waiting for a size. -/
theorem not_uploaded_of_not_mem {done : List BackupExchange} {dump : ℕ}
    (h : ⟨.copyto dump obj, true⟩ ∉ done) : ¬ Uploaded done dump obj := by
  rintro ⟨pre, rfl⟩
  exact h (List.mem_append_right _ (List.mem_singleton_self _))

/-- A call that finds nothing and uploads nothing. -/
theorem apart_other {s : BackupPool} (hfound : ∀ obj, x ≠ ⟨.lsfGrep obj, true⟩)
    (hcopy : ∀ dump obj, x ≠ ⟨.copyto dump obj, true⟩) : Apart s (.call t x) where
  finding _ obj h := by
    cases h
    exact absurd rfl (hfound obj)
  uploading _ dump obj h := by
    cases h
    exact absurd rfl (hcopy dump obj)

theorem apart_start {s : BackupPool} {node : String} : Apart s (.start t node) where
  finding _ _ h := by cases h
  uploading _ _ _ h := by cases h

/-- The pool with the first cycle over, and with the first two. -/
def afterFailing : BackupPool :=
  ⟨fun _ => none, Function.update emptyPool.tasks 0 (some ⟨"node-1", failing, .ret 1⟩)⟩

def afterBackup : BackupPool :=
  ⟨backedUp, Function.update afterFailing.tasks 1 (some ⟨"node-1", backingUp, .ret 0⟩)⟩

theorem failing_quiet {x : BackupExchange} (hx : x ∈ failing) :
    (∀ obj, x ≠ ⟨.lsfGrep obj, true⟩) ∧ ∀ dump obj, x ≠ ⟨.copyto dump obj, true⟩ := by
  simp only [failing, List.mem_cons, List.not_mem_nil, or_false] at hx
  rcases hx with rfl | rfl | rfl | rfl | rfl | rfl <;>
    exact ⟨fun _ h => (by cases h), fun _ _ h => (by cases h)⟩

theorem failing_over (dump : ℕ) : ¬ Relies failing obj ∧ ¬ Uploaded failing dump obj := by
  have hlast : failing = failing.take 5 ++ [⟨.copyto 5000 day, false⟩] := rfl
  rw [hlast, relies_snoc, uploaded_snoc]
  exact ⟨fun h => (by cases h), fun h => (by cases h)⟩

/-- Before its upload a cycle relies on nothing. -/
theorem backingUp_apart {pre post : List BackupExchange} {q : Backup ℕ} {w : Bucket}
    (hsplit : backingUp = pre ++ x :: post) :
    Apart ⟨w, Function.update afterFailing.tasks 1 (some ⟨"node-1", pre, q⟩)⟩
      (.call 1 x) := by
  have hx : x ∈ backingUp := hsplit ▸ List.mem_append_right _ List.mem_cons_self
  constructor
  · rintro _ obj ⟨⟩
    simp [backingUp, uploading] at hx
  · rintro _ dump obj ⟨⟩ u task hu
    have hparts : (uploading none).take 5 ++ ⟨.copyto 5000 day, true⟩ ::
        [⟨.size day 5000, some 5000⟩, ⟨.delete 30, true⟩] =
        pre ++ ⟨.copyto dump obj, true⟩ :: post := hsplit
    obtain ⟨hpre, -, -⟩ := (List.append_cons_inj_of_notMem (by simp [uploading])
      (by simp)).mp hparts
    rcases Pool.tasks_update hu with ⟨-, rfl⟩ | ⟨-, hu⟩
    · have hmeasured : pre = (uploading none).take 4 ++ [⟨.wc 5000, true⟩] := hpre.symm
      dsimp only
      rw [hmeasured, relies_snoc]
      refine ⟨fun h => (by cases h), fun dump h => ?_⟩
      cases uploaded_snoc.mp h
    · rcases Pool.tasks_update hu with ⟨-, rfl⟩ | ⟨-, hu⟩
      · exact ⟨(failing_over 0).1, fun dump => (failing_over dump).2⟩
      · cases hu

/-- The cycle that finds the object comes after the one that uploaded it. -/
theorem skipping_apart {pre post : List BackupExchange} {q : Backup ℕ} {w : Bucket}
    (hsplit : skipping = pre ++ x :: post) :
    Apart ⟨w, Function.update afterBackup.tasks 2 (some ⟨"node-2", pre, q⟩)⟩
      (.call 2 x) := by
  have hx : x ∈ skipping := hsplit ▸ List.mem_append_right _ List.mem_cons_self
  constructor
  · rintro _ obj ⟨⟩ u task dump hu
    rcases Pool.tasks_update hu with ⟨-, rfl⟩ | ⟨-, hu⟩
    · refine not_uploaded_of_not_mem fun hmem => ?_
      have hin : (⟨.copyto dump obj, true⟩ : BackupExchange) ∈ skipping :=
        hsplit ▸ List.mem_append_left _ hmem
      simp [skipping] at hin
    · rcases Pool.tasks_update hu with ⟨-, rfl⟩ | ⟨-, hu⟩
      · have hlast : backingUp = uploading (some 5000) ++ [⟨.delete 30, true⟩] := rfl
        dsimp only
        rw [hlast, uploaded_snoc]
        exact fun h => by cases h
      · rcases Pool.tasks_update hu with ⟨-, rfl⟩ | ⟨-, hu⟩
        · exact (failing_over _).2
        · cases hu
  · rintro _ dump obj ⟨⟩
    simp [skipping] at hx

theorem failing_orderly : Trace (fun a e b => Pool.Step reliableSystem a e b ∧ Apart a e)
    emptyPool (.start 0 "node-1" :: failing.map (.call 0)) afterFailing :=
  Pool.solo_start Apart failing_runs rfl failing_acts apart_start
    fun _ _ _ _ _ hsplit _ => by
      obtain ⟨hlist, hcopy⟩ := failing_quiet
        (hsplit ▸ List.mem_append_right _ List.mem_cons_self)
      exact apart_other hlist hcopy

theorem backingUp_orderly :
    Trace (fun a e b => Pool.Step reliableSystem a e b ∧ Apart a e)
      afterFailing (.start 1 "node-1" :: backingUp.map (.call 1)) afterBackup :=
  Pool.solo_start Apart backingUp_runs rfl backingUp_acts apart_start
    fun _ _ _ _ _ hsplit _ => backingUp_apart hsplit

theorem skipping_orderly :
    Trace (fun a e b => Pool.Step reliableSystem a e b ∧ Apart a e)
      afterBackup (.start 2 "node-2" :: skipping.map (.call 2))
      ⟨backedUp, Function.update afterBackup.tasks 2
        (some ⟨"node-2", skipping, .ret 0⟩)⟩ :=
  Pool.solo_start Apart skipping_runs rfl skipping_reliable apart_start
    fun _ _ _ _ _ hsplit _ => skipping_apart hsplit

/-- An upload fails, the next poll uploads the dump, and after a failover the new
primary finds it. -/
theorem backup_kept_failover : ∃ s : BackupPool, Kept {} s 2 ∧
    ∃ task, s.tasks 2 = some task ∧ task.rest = .ret 0 ∧
      ⟨.date, "20260101"⟩ ∈ task.done ∧ ⟨.lsfGrep day, true⟩ ∈ task.done := by
  have hrun := ((failing_orderly.append backingUp_orderly).append skipping_orderly).mono
    fun _ _ _ hab => orderly_of_reliable hab
  refine ⟨_, backup_kept
    (((.start 0 "node-1" :: failing.map (.call 0)) ++
      (.start 1 "node-1" :: backingUp.map (.call 1))) ++
      (.start 2 "node-2" :: (skipping.take 3).map (.call 2)))
    ⟨rfl, fun _ _ ho => by cases ho⟩ (x := ⟨.delete 30, true⟩) (t := 2) hrun, ?_⟩
  exact ⟨_, rfl, rfl, .tail _ (.head _), .tail _ (.tail _ (.head _))⟩

/-- 100 of 5000 bytes arrive. -/
theorem uploading_acts : ∃ w, Trace (Acts grepDots) (fun _ => none) (uploading (some 100)) w ∧
    w day = some ⟨5000, 100, false, false⟩ := by
  refine ⟨_, .cons (.primaryCode _ _) (.cons (.date _ _) (.cons (.notFound _ _)
    (.cons (.pgDump _ _) (.cons (.wc _ _ _) (.cons (.uploaded _ 5000 100 day true)
    (.cons (.sized 5000 (Function.update_self _ _ _) rfl) (.nil _))))))), ?_⟩
  rw [Bucket.put, Function.update_self]
  rfl

theorem skipping_acts {w : Bucket} {o : Stored} (h : w day = some o)
    (hpruned : o.pruned = false) : Trace (Acts grepDots) w skipping w :=
  .cons (.primaryCode _ _) (.cons (.date _ _) (.cons (.found h hpruned (grepDots_self day))
    (.cons (pruned_nothing w) (.nil _))))

/-- A cycle uploads 100 of 5000 bytes and fails its verification. The next one finds
the object and returns 0. -/
theorem unverified_backup_skipped : ¬ ∀ (es : List BackupEvent) (s : BackupPool) (t : ℕ)
    (x : BackupExchange), Trace (Pool.Step (backupSystem {} grepDots)) emptyPool
      (es ++ [.call t x]) s → Kept {} s t := by
  intro h
  obtain ⟨w, hacts, hday⟩ := uploading_acts
  have hfirst := Pool.solo_start (S := backupSystem {} grepDots) (fun _ _ => True)
    (s := emptyPool) (t := 0) uploading_runs rfl hacts trivial
    fun _ _ _ _ _ _ _ => trivial
  have hsecond := Pool.solo_start (S := backupSystem {} grepDots) (fun _ _ => True)
    (t := 1) (s := ⟨w, Function.update emptyPool.tasks 0
      (some ⟨"node-1", uploading (some 100), .ret 1⟩)⟩)
    skipping_runs rfl (skipping_acts hday rfl) trivial fun _ _ _ _ _ _ _ => trivial
  obtain ⟨o, ho, hverified, -⟩ := h (.start 0 "node-1" ::
    (uploading (some 100)).map (.call 0) ++ .start 1 "node-1" ::
    (skipping.take 3).map (.call 1)) _ 1 ⟨.delete 30, true⟩
    ((hfirst.append hsecond).mono fun _ _ _ hab => hab.1) _ "20260101" rfl rfl
    (.tail _ (.head _))
  cases hday.symm.trans ho
  cases hverified

end VideoStorage.Deploy
