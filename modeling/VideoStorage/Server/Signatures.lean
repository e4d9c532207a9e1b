import VideoStorage.Foundation.Trace
import VideoStorage.Mirror.Freshness
import VideoStorage.Videogen.Authentication

/-!
# Signatures across the interfaces

Three parties make signatures: the mirror client, the moderation client and Vast.
Two interfaces check them: `authorize` and `verify_hmac`. Whoever sees signatures
may send them with any request, and the keys may be one. What an interface accepts
was still signed for it, with the method, path and timestamp it came with
(`requests_authentic`), since no message of one kind is one of another.

What HMAC-SHA256 guarantees is a hypothesis: who holds no key presents no MAC that
nobody made (`Unforged`).
-/

namespace VideoStorage.Server

open Foundation Videogen
open Mirror (HttpCrates signedMessage sign credentials authorize authorizeIn)

/-! ## Signatures -/

inductive Signature
  /-- `MirrorClient::sign`, at a second of the client's clock. -/
  | mirror (now : ℕ) (method path : String)
  /-- `sign_moderation_request`. -/
  | moderation (timestamp : Int64) (method path : String) (body : Bytes)
  /-- What a callback of Vast carries. -/
  | callback (key : HmacKey) (path : String) (timestamp : Int64) (body : Bytes)

/-- Whose signature it is. -/
inductive Kind
  | mirror
  | moderation
  | callback
  deriving DecidableEq, Repr

def Signature.kind : Signature → Kind
  | .mirror _ _ _ => .mirror
  | .moderation _ _ _ _ => .moderation
  | .callback _ _ _ _ => .callback

/-- The mirror client's clock counts its seconds in 63 bits. -/
def Signature.InRange : Signature → Prop
  | .mirror now _ _ => now < 2 ^ 63
  | _ => True

/-- The service's secrets, and the crates that all sides use. -/
structure Service where
  http : HttpCrates
  crates : Crates
  /-- `SERVICE_SECRET_TOKEN`. -/
  service : String
  /-- `MODERATION_HMAC_SECRET`. -/
  moderation : Bytes

namespace Service

variable (svc : Service)

def key : Signature → Bytes
  | .mirror _ _ _ => utf8Bytes svc.service
  | .moderation _ _ _ _ => svc.moderation
  | .callback key _ _ _ => key.bytes

def message : Signature → String
  | .mirror now method path => signedMessage method path (decimalText now)
  | .moderation timestamp method path body =>
      lines [(decimal timestamp).toList, method.toList, path.toList,
        (svc.crates.sha256Hex body).toList]
  | .callback _ path timestamp body =>
      signatureMessage "POST" path timestamp (svc.crates.sha256Hex body)

def mac (x : Signature) : Bytes :=
  svc.crates.hmacSha256 (svc.key x) (utf8 (svc.message x))

/-- The MAC is one function on all sides, and a SHA-256 in hex has 64 digits. -/
structure Documented : Prop where
  hmac : svc.http.hmacSha256 = svc.crates.hmacSha256
  hexLength : ∀ body, (svc.crates.sha256Hex body).toList.length = 64
  hexDigits : ∀ body, '\n' ∉ (svc.crates.sha256Hex body).toList

/-- A MAC under this key was made by somebody who signed that message. -/
def Unforged (issued : List Signature) (key sig : Bytes) : Prop :=
  ∀ m, svc.crates.hmacSha256 key m = sig →
    ∃ x ∈ issued, utf8 (svc.message x) = m ∧ svc.mac x = sig

end Service

theorem utf8_eq_utf8Bytes (s : String) : utf8 s = utf8Bytes s :=
  byteArray_toList _

section Sides

variable (svc : Service)

/-- The signature is the client's. -/
theorem sign_eq (h : svc.Documented) (now : ℕ) (method path : String) :
    sign svc.http svc.service now method path = (decimalText now,
      svc.http.hexEncode (svc.mac (.mirror now method path))) := by
  unfold sign Service.mac
  rw [h.hmac, utf8_eq_utf8Bytes]
  rfl

theorem signModerationRequest_eq (timestamp : Int64) (method path : String)
    (body : Bytes) :
    signModerationRequest svc.crates svc.moderation method path timestamp body =
      svc.crates.hexEncode (svc.mac (.moderation timestamp method path body)) := rfl

end Sides

/-! ## Messages of one kind are none of another -/

theorem signedMessage_toList (method path timestamp : String) :
    (signedMessage method path timestamp).toList =
      method.toList ++ '\n' :: (path.toList ++ '\n' :: timestamp.toList) := by
  unfold signedMessage
  simp

theorem newline_not_mem_intText (n : ℤ) : '\n' ∉ intText n :=
  not_mem_intText (by decide) (by decide) n

theorem newline_not_mem_decimalText (n : ℕ) : '\n' ∉ (decimalText n).toList := by
  unfold decimalText
  rw [String.toList_ofList]
  exact not_mem_digits (by decide) n

theorem newline_not_mem_of_parseI64 {s : String} {n : Int64}
    (h : parseI64 s = some n) : '\n' ∉ s.toList := by
  have hdigits : ∀ ds : List Char, (parseDigits ds).isSome → '\n' ∉ ds := by
    intro ds hds hmem
    unfold parseDigits at hds
    split_ifs at hds with hall
    · exact absurd (List.all_eq_true.mp hall.2 _ hmem) (by decide)
    · cases hds
  unfold parseI64 at h
  split at h
  all_goals
    rename_i hs
    obtain ⟨m, hm, -⟩ := Option.bind_eq_some_iff.mp h
    have hnot := hdigits _ (Option.isSome_of_eq_some hm)
  · rw [hs]
    exact List.not_mem_cons_of_ne_of_not_mem (by decide) hnot
  · rw [hs]
    exact List.not_mem_cons_of_ne_of_not_mem (by decide) hnot
  · exact hnot

/-- What comes after the last newline. -/
theorem split_last_newline {as bs as' bs' : List Char} (h : '\n' ∉ bs)
    (h' : '\n' ∉ bs') (heq : as ++ '\n' :: bs = as' ++ '\n' :: bs') :
    as = as' ∧ bs = bs' := by
  have hrev := congrArg List.reverse heq
  simp only [List.reverse_append, List.reverse_cons, List.append_assoc,
    List.singleton_append] at hrev
  obtain ⟨hb, ha⟩ := split_newline (mt List.mem_reverse.mp h)
    (mt List.mem_reverse.mp h') hrev
  exact ⟨List.reverse_inj.mp ha, List.reverse_inj.mp hb⟩

/-! A mirror message ends with the digits of a clock, the others with those of a
hash; a moderation message begins with digits, a callback's does not. -/

section Messages

variable {svc : Service} {method path tsStr : String} {timestamp : Int64}
  {body : Bytes} {x y : Signature}

theorem length_decimalText {now : ℕ} (h : now < 2 ^ 63) :
    (decimalText now).toList.length ≤ 19 := by
  unfold decimalText
  rw [String.toList_ofList]
  refine (Nat.length_toDigits_le_iff (by decide) (by decide)).mpr ?_
  omega

theorem moderation_toList (ts : Int64) (method path : String) (body : Bytes) :
    (svc.message (.moderation ts method path body)).toList =
      intText ts.toInt ++ '\n' :: (method.toList ++ '\n' :: (path.toList ++
        '\n' :: (svc.crates.sha256Hex body).toList)) := by
  unfold Service.message lines
  rw [String.toList_ofList, decimal_toList]
  simp [List.intercalate, List.intersperse]

/-- The last line of a message that is not the mirror's. -/
theorem message_last (hkind : x.kind ≠ .mirror) :
    ∃ front body, (svc.message x).toList =
      front ++ '\n' :: (svc.crates.sha256Hex body).toList := by
  cases x with
  | mirror => exact absurd rfl hkind
  | moderation ts method path body =>
      refine ⟨intText ts.toInt ++ '\n' :: (method.toList ++ '\n' :: path.toList),
        body, ?_⟩
      rw [moderation_toList]
      simp
  | callback key path ts body =>
      refine ⟨"POST".toList ++ '\n' :: (path.toList ++ '\n' :: intText ts.toInt),
        body, ?_⟩
      show (signatureMessage "POST" path ts (svc.crates.sha256Hex body)).toList = _
      rw [signatureMessage_toList]
      simp

/-- A clock is shorter than a hash. -/
theorem mirror_ne (hdoc : svc.Documented) {now : ℕ} (hnow : now < 2 ^ 63)
    (hkind : x.kind ≠ .mirror) :
    svc.message (.mirror now method path) ≠ svc.message x := by
  intro h
  obtain ⟨front, body, hx⟩ := message_last hkind
  have hlist := congrArg String.toList h
  rw [hx] at hlist
  unfold Service.message at hlist
  rw [signedMessage_toList, ← List.cons_append, ← List.append_assoc] at hlist
  have hlast := (split_last_newline (newline_not_mem_decimalText now)
    (hdoc.hexDigits body) hlist).2
  have hlength := congrArg List.length hlast
  have hshort := length_decimalText hnow
  rw [hdoc.hexLength] at hlength
  omega

/-- The first line of a callback's message is no number. -/
theorem moderation_ne {ts : Int64} {key : HmacKey} {path' : String} {body' : Bytes} :
    svc.message (.moderation ts method path body) ≠
      svc.message (.callback key path' timestamp body') := by
  intro h
  have hlist := congrArg String.toList h
  rw [moderation_toList] at hlist
  unfold Service.message at hlist
  rw [signatureMessage_toList] at hlist
  obtain ⟨hpost, -⟩ := split_newline (newline_not_mem_intText _)
    newline_not_mem_post hlist
  have hmem : 'P' ∈ intText ts.toInt := hpost ▸ (by decide)
  exact absurd hmem (not_mem_intText (by decide) (by decide) _)

/-- **No message of one kind is one of another**, whatever is signed. -/
theorem message_kind (hdoc : svc.Documented) (hx : x.InRange) (hy : y.InRange)
    (h : svc.message x = svc.message y) : x.kind = y.kind := by
  by_contra hkind
  cases x with
  | mirror now method path => exact mirror_ne hdoc hx (Ne.symm hkind) h
  | moderation ts method path body =>
      cases y with
      | mirror now method' path' => exact mirror_ne hdoc hy hkind h.symm
      | moderation => exact hkind rfl
      | callback key path' ts' body' => exact moderation_ne h
  | callback key path ts body =>
      cases y with
      | mirror now method' path' => exact mirror_ne hdoc hy hkind h.symm
      | moderation ts' method' path' body' => exact moderation_ne h.symm
      | callback => exact hkind rfl

/-- **The mirror's message**: three lines, which no other kind has. -/
theorem message_eq_signed (hmethod : '\n' ∉ method.toList)
    (hpath : '\n' ∉ path.toList) (hts : '\n' ∉ tsStr.toList)
    (h : svc.message x = signedMessage method path tsStr) :
    ∃ now, x = .mirror now method path ∧ tsStr = decimalText now := by
  have hlist := congrArg String.toList h
  rw [signedMessage_toList] at hlist
  have hcount := congrArg (List.count '\n') hlist
  simp only [List.count_append, List.count_cons_self, List.count_eq_zero.mpr hmethod,
    List.count_eq_zero.mpr hpath, List.count_eq_zero.mpr hts] at hcount
  cases x with
  | mirror now method' path' =>
      unfold Service.message at hlist hcount
      rw [signedMessage_toList] at hlist hcount
      simp only [List.count_append, List.count_cons_self] at hcount
      have hmethod' : '\n' ∉ method'.toList := List.count_eq_zero.mp (by omega)
      have hpath' : '\n' ∉ path'.toList := List.count_eq_zero.mp (by omega)
      obtain ⟨hm, hrest⟩ := split_newline hmethod' hmethod hlist
      obtain ⟨hp, ht⟩ := split_newline hpath' hpath hrest
      obtain rfl := String.toList_inj.mp hm
      obtain rfl := String.toList_inj.mp hp
      exact ⟨now, rfl, (String.toList_inj.mp ht).symm⟩
  | moderation ts method' path' body =>
      -- a fourth line
      rw [moderation_toList] at hcount
      simp only [List.count_append, List.count_cons_self] at hcount
      omega
  | callback key path' ts body =>
      unfold Service.message at hcount
      rw [signatureMessage_toList] at hcount
      simp only [List.count_append, List.count_cons_self] at hcount
      omega

/-- **The callbacks' message**: only they have it, and it says what was signed. -/
theorem message_eq_signatureMessage (hdoc : svc.Documented) (hpath : '\n' ∉ path.toList)
    (hx : x.InRange) (h : svc.message x =
      signatureMessage "POST" path timestamp (svc.crates.sha256Hex body)) :
    ∃ key body', x = .callback key path timestamp body' ∧
      svc.crates.sha256Hex body' = svc.crates.sha256Hex body := by
  have hkind : x.kind = .callback :=
    message_kind (y := .callback ⟨"", []⟩ path timestamp body) hdoc hx trivial h
  cases x with
  | mirror => cases hkind
  | moderation => cases hkind
  | callback key path' ts body' =>
      have hlist := congrArg String.toList h
      unfold Service.message at hlist
      rw [signatureMessage_toList, signatureMessage_toList] at hlist
      obtain ⟨-, hrest⟩ := split_newline newline_not_mem_post newline_not_mem_post
        hlist
      -- as many lines on both sides, so the path has no newline either
      have hcount := congrArg (List.count '\n') hrest
      simp only [List.count_append, List.count_cons_self,
        List.count_eq_zero.mpr hpath, List.count_eq_zero.mpr (hdoc.hexDigits _),
        List.count_eq_zero.mpr (newline_not_mem_intText _)] at hcount
      have hpath' : '\n' ∉ path'.toList := List.count_eq_zero.mp (by omega)
      obtain ⟨hp, hrest⟩ := split_newline hpath' hpath hrest
      obtain ⟨ht, hb⟩ := split_newline (newline_not_mem_intText _)
        (newline_not_mem_intText _) hrest
      obtain rfl := String.toList_inj.mp hp
      obtain rfl := Int64.toInt_inj.mp (intText_injective ht)
      exact ⟨key, body', rfl, String.toList_inj.mp hb⟩

end Messages

/-! ## Requests over the network -/

inductive AuthEvent
  | sign (x : Signature)
  /-- A request comes to `authorize`. -/
  | authorize (now : Int64) (request : Mirror.Request)
  /-- A callback comes to `verify_hmac`. -/
  | verifyHmac (env : CallbackEnv) (headers : HeaderMap) (rawBody : Bytes)
      (path : String)

/-- A request's method and path, as HTTP has them. -/
structure OnOneLine (request : Mirror.Request) : Prop where
  method : '\n' ∉ request.method.toList
  path : '\n' ∉ request.path.toList

/-- The signatures made so far. A request may be anything, but for forged MACs. -/
inductive AuthStep (svc : Service) (issued : List Signature) :
    AuthEvent → List Signature → Prop
  | sign (x : Signature) (hx : x.InRange) :
      AuthStep svc issued (.sign x) (x :: issued)
  | authorize (now : Int64) (request : Mirror.Request) (hclock : 0 ≤ now)
      (hhttp : OnOneLine request)
      (hsig : ∀ tsStr sigHex sig, credentials request = .ok (tsStr, sigHex) →
        svc.http.hexDecode sigHex = some sig →
        svc.Unforged issued (utf8Bytes svc.service) sig) :
      AuthStep svc issued (.authorize now request) issued
  | verifyHmac (env : CallbackEnv) (headers : HeaderMap) (rawBody : Bytes)
      (path : String) (hpath : '\n' ∉ path.toList)
      (hsig : ∀ registry key sigHex sig, env.hmacRegistry = .ok registry →
        key ∈ registry.keys →
        headerStr headers "authorization" = some (authorizationScheme ++ sigHex) →
        svc.crates.hexDecode sigHex = some sig →
        svc.Unforged issued key.bytes sig) :
      AuthStep svc issued (.verifyHmac env headers rawBody path) issued

section Runs

variable {svc : Service} {issued issued' : List Signature} {e : AuthEvent}
  {es : List AuthEvent}

/-- What was issued was signed in the run. -/
theorem mem_issued (hrun : Trace (AuthStep svc) issued es issued') {x : Signature} :
    x ∈ issued' ↔ x ∈ issued ∨ .sign x ∈ es := by
  induction hrun with
  | nil => simp
  | cons hstep _ ih =>
      rw [ih]
      cases hstep with
      | sign y _ => simp [or_assoc, or_left_comm]
      | authorize now request _ _ _ => simp
      | verifyHmac env headers rawBody path _ _ => simp

/-- The mirror client's clock is in range. -/
theorem issued_in_range (hrun : Trace (AuthStep svc) issued es issued')
    (h : ∀ x ∈ issued, x.InRange) : ∀ x ∈ issued', x.InRange := by
  refine hrun.invariant (fun l => ∀ x ∈ l, x.InRange) (fun a e b ha hstep => ?_) h
  cases hstep with
  | sign y hy =>
      intro x hx
      rcases List.mem_cons.mp hx with rfl | hx
      · exact hy
      · exact ha x hx
  | authorize now request _ _ _ => exact ha
  | verifyHmac env headers rawBody path _ _ => exact ha

/-! ## What is accepted -/

/-- What a request passes on the way through `authorize`. -/
theorem authorize_eq_ok_iff {now : Int64} {request : Mirror.Request} :
    authorize svc.http svc.service now request = .ok () ↔
      ∃ tsStr sigHex ts sig, credentials request = .ok (tsStr, sigHex) ∧
        parseI64 tsStr = some ts ∧ ¬ 300 < (now - ts).abs ∧
        svc.http.hexDecode sigHex = some sig ∧
        svc.http.hmacSha256 (utf8Bytes svc.service)
          (utf8Bytes (signedMessage request.method request.path tsStr)) = sig := by
  unfold authorize
  rw [bind_eq_ok]
  constructor
  · rintro ⟨⟨tsStr, sigHex⟩, hcred, h⟩
    obtain ⟨ts, hts, h⟩ := bind_eq_ok.mp h
    split_ifs at h with hlate
    obtain ⟨sig, hsig, h⟩ := bind_eq_ok.mp h
    dsimp only at h
    split_ifs at h with hmac
    exact ⟨tsStr, sigHex, ts, sig, hcred, okOr_eq_ok.mp hts, hlate,
      okOr_eq_ok.mp hsig, hmac⟩
  · rintro ⟨tsStr, sigHex, ts, sig, hcred, hts, hlate, hsig, hmac⟩
    refine ⟨(tsStr, sigHex), hcred, bind_eq_ok.mpr ⟨ts, okOr_eq_ok.mpr hts, ?_⟩⟩
    rw [if_neg hlate]
    refine bind_eq_ok.mpr ⟨sig, okOr_eq_ok.mpr hsig, ?_⟩
    rw [if_pos hmac]

/-- The window around a second that the client's clock has shown. -/
theorem inWindow_iff {now : Int64} (hclock : 0 ≤ now) {t : ℕ} (ht : t < 2 ^ 63) :
    ¬ 300 < (now - .ofInt t).abs ↔ (now.toInt - t).natAbs ≤ 300 := by
  have hpos : (0 : ℤ) ≤ t := Int.natCast_nonneg t
  have hrange : (t : ℤ) < 2 ^ 63 := by exact_mod_cast ht
  have hnow : (0 : ℤ) ≤ now.toInt := Int64.le_iff_toInt_le.mp hclock
  have hnow' := Int64.toInt_lt now
  have hts : (Int64.ofInt t).toInt = t := Int64.toInt_ofInt_of_le (by omega) hrange
  rw [Int64.lt_iff_toInt_lt, toInt_abs_sub (by rw [hts]; omega), hts]
  show ¬ (300 : ℤ) < _ ↔ _
  omega

variable {pre : List AuthEvent}

/-- **`authorize`** lets through exactly the requests that carry a signature the
client made for their method and path within five minutes. -/
theorem authorize_iff (hdoc : svc.Documented)
    (hrun : Trace (AuthStep svc) [] pre issued) {now : Int64}
    {request : Mirror.Request}
    (hstep : AuthStep svc issued (.authorize now request) issued') :
    authorize svc.http svc.service now request = .ok () ↔
      ∃ t sigHex, .sign (.mirror t request.method request.path) ∈ pre ∧
        credentials request = .ok (decimalText t, sigHex) ∧
        svc.http.hexDecode sigHex =
          some (svc.mac (.mirror t request.method request.path)) ∧
        (now.toInt - t).natAbs ≤ 300 := by
  have hrange := issued_in_range hrun (fun _ h => absurd h List.not_mem_nil)
  rw [authorize_eq_ok_iff]
  cases hstep with
  | authorize _ _ hclock hhttp hunforged =>
      constructor
      · rintro ⟨tsStr, sigHex, ts, sig, hcred, hts, hlate, hsig, hmac⟩
        obtain ⟨x, hx, hmessage, hxmac⟩ := hunforged tsStr sigHex sig hcred hsig
          (utf8 (signedMessage request.method request.path tsStr))
          (by rw [← hdoc.hmac, utf8_eq_utf8Bytes]; exact hmac)
        obtain ⟨t, rfl, rfl⟩ := message_eq_signed hhttp.method hhttp.path
          (newline_not_mem_of_parseI64 hts) (toUTF8_toList_injective hmessage)
        have ht : t < 2 ^ 63 := hrange _ hx
        rw [parseI64_decimalText ht] at hts
        obtain rfl := Option.some.inj hts
        refine ⟨t, sigHex, ?_, hcred, hsig.trans (congrArg some hxmac.symm),
          (inWindow_iff hclock ht).mp hlate⟩
        exact ((mem_issued hrun).mp hx).resolve_left List.not_mem_nil
      · rintro ⟨t, sigHex, hsign, hcred, hsig, hwindow⟩
        have ht : t < 2 ^ 63 :=
          hrange _ ((mem_issued hrun).mpr (.inr hsign))
        refine ⟨decimalText t, sigHex, .ofInt t, _, hcred, parseI64_decimalText ht,
          (inWindow_iff hclock ht).mpr hwindow, hsig, ?_⟩
        unfold Service.mac
        rw [hdoc.hmac, utf8_eq_utf8Bytes]
        rfl

/-- **`verify_hmac`** lets through exactly the callbacks that carry a fresh
signature which was made for their path and the hash of their body. -/
theorem verifyHmac_iff (hdoc : svc.Documented)
    (hrun : Trace (AuthStep svc) [] pre issued) {env : CallbackEnv}
    {headers : HeaderMap} {rawBody : Bytes} {path : String}
    (hstep : AuthStep svc issued (.verifyHmac env headers rawBody path) issued') :
    verifyHmac svc.crates env headers rawBody path = .ok () ↔
      ∃ c, SignedBy svc.crates env headers rawBody path c ∧
        ∃ key body, .sign (.callback key path c.timestamp body) ∈ pre ∧
          svc.crates.sha256Hex body = svc.crates.sha256Hex rawBody := by
  have hrange := issued_in_range hrun (fun _ h => absurd h List.not_mem_nil)
  rw [verifyHmac_eq_ok]
  cases hstep with
  | verifyHmac _ _ _ _ hpath hunforged =>
      constructor
      · rintro ⟨c, hc⟩
        obtain ⟨registry, hregistry, hkey⟩ := hc.registered
        obtain ⟨x, hx, hmessage, -⟩ := hunforged registry c.key c.signatureHex _
          hregistry (HmacKeyRegistry.id_of_get hkey).1 hc.authorization hc.mac _ rfl
        obtain ⟨key, body, rfl, hbody⟩ := message_eq_signatureMessage hdoc hpath
          (hrange x hx) (toUTF8_toList_injective hmessage)
        exact ⟨c, hc, key, body,
          ((mem_issued hrun).mp hx).resolve_left List.not_mem_nil, hbody⟩
      · rintro ⟨c, hc, -⟩
        exact ⟨c, hc⟩

/-- **Overflow checks let the same requests through**: none that is signed makes
`authorize` panic. -/
theorem authorizeIn_iff (hdoc : svc.Documented)
    (hrun : Trace (AuthStep svc) [] pre issued) (mode : Overflow) {now : Int64}
    {request : Mirror.Request}
    (hstep : AuthStep svc issued (.authorize now request) issued') :
    authorizeIn svc.http svc.service mode now request = some (.ok ()) ↔
      authorize svc.http svc.service now request = .ok () := by
  cases mode with
  | wrapping => rw [Mirror.authorizeIn_wrapping, Option.some_inj]
  | checked =>
      have hclock : 0 ≤ now := by
        cases hstep with
        | authorize _ _ hclock _ _ => exact hclock
      constructor
      · exact Mirror.authorize_of_checked hclock
      · intro hok
        obtain ⟨t, sigHex, hsign, hcred, -, -⟩ := (authorize_iff hdoc hrun hstep).mp hok
        have ht : t < 2 ^ 63 := issued_in_range hrun
          (fun _ h => absurd h List.not_mem_nil) _
          ((mem_issued hrun).mpr (.inr hsign))
        have hts : (Int64.ofInt t).toInt = t :=
          Int64.toInt_ofInt_of_le (by omega) (by exact_mod_cast ht)
        have hhigh := Int64.toInt_lt now
        obtain ⟨r, hr⟩ : ∃ r, Mirror.authorizeIn svc.http svc.service .checked now
            request = some r :=
          Mirror.authorizeIn_eq_some hclock hcred (parseI64_decimalText ht)
            (by rw [hts]; omega)
        rw [hr, ← Mirror.authorize_of_checked hclock hr, hok]

/-- What a request that comes after the events `pre` is accepted for. -/
structure Authentic (svc : Service) (pre : List AuthEvent) (e : AuthEvent) :
    Prop where
  authorize : ∀ now request, e = .authorize now request →
    (authorize svc.http svc.service now request = .ok () ↔
      ∃ t sigHex, .sign (.mirror t request.method request.path) ∈ pre ∧
        credentials request = .ok (decimalText t, sigHex) ∧
        svc.http.hexDecode sigHex =
          some (svc.mac (.mirror t request.method request.path)) ∧
        (now.toInt - t).natAbs ≤ 300)
  builds : ∀ mode now request, e = .authorize now request →
    (authorizeIn svc.http svc.service mode now request = some (.ok ()) ↔
      Mirror.authorize svc.http svc.service now request = .ok ())
  verifyHmac : ∀ env headers rawBody path, e = .verifyHmac env headers rawBody path →
    (verifyHmac svc.crates env headers rawBody path = .ok () ↔
      ∃ c, SignedBy svc.crates env headers rawBody path c ∧
        ∃ key body, .sign (.callback key path c.timestamp body) ∈ pre ∧
          svc.crates.sha256Hex body = svc.crates.sha256Hex rawBody)

/-- **Accepted requests were signed for what they ask**, in every order of the
three parties' signatures and anybody's requests, whichever keys are the same; and
no two parties sign the same message. -/
theorem requests_authentic (svc : Service) (hdoc : svc.Documented)
    {pre post : List AuthEvent} {e : AuthEvent} {issued : List Signature}
    (hrun : Trace (AuthStep svc) [] (pre ++ e :: post) issued) :
    Authentic svc pre e ∧ ∀ x ∈ issued, ∀ y ∈ issued,
      svc.message x = svc.message y → x.kind = y.kind := by
  have hrange := issued_in_range hrun fun _ h => absurd h List.not_mem_nil
  obtain ⟨before, after, hpre, hstep, -⟩ := hrun.at_event
  refine ⟨?_, fun x hx y hy => message_kind hdoc (hrange x hx) (hrange y hy)⟩
  constructor
  · rintro now request rfl
    exact authorize_iff hdoc hpre hstep
  · rintro mode now request rfl
    exact authorizeIn_iff hdoc hpre mode hstep
  · rintro env headers rawBody path rfl
    exact verifyHmac_iff hdoc hpre hstep

end Runs

/-! A signed request seen on its way, and sent again as a signed URL. -/

/-- HMAC-SHA256 under `test-secret`, of one message. -/
def videoHmac (_ m : Bytes) : Bytes :=
  if m = utf8 (signedMessage "GET" "/mirror/duplicates/video-1" "1777000000") then
    Mirror.videoMac
  else []

def testService : Service where
  http := { Mirror.normalCrates [] with hmacSha256 := videoHmac }
  crates := { failureBody.crates with hmacSha256 := videoHmac }
  service := "test-secret"
  moderation := []

theorem testService_documented : testService.Documented where
  hmac := rfl
  hexLength _ := by
    show failureBody.bodyHash.toList.length = 64
    decide +kernel
  hexDigits _ := by
    show '\n' ∉ failureBody.bodyHash.toList
    decide +kernel

def videoSignature : Signature :=
  .mirror 1777000000 "GET" "/mirror/duplicates/video-1"

def signedUrl : Mirror.Request where
  method := "GET"
  path := "/mirror/duplicates/video-1"
  query := some ("timestamp=1777000000&sig=d6e44c6c3e7a987e9649b954f9ae6029" ++
    "3cef504d1a026689d93ca9f9ab9c2265")
  headers := []

def signedUrlHex : String :=
  "d6e44c6c3e7a987e9649b954f9ae60293cef504d1a026689d93ca9f9ab9c2265"

theorem credentials_signedUrl :
    credentials signedUrl = .ok ("1777000000", signedUrlHex) := by
  decide +kernel

theorem hexDecode_signedUrl :
    testService.http.hexDecode signedUrlHex = some Mirror.videoMac := by
  decide +kernel

/-- The moderation client's signature of an empty body in the same second. -/
def checkSignature : Signature := .moderation 1777000000 "POST" "/moderate" []

theorem requests_authentic_replayed :
    (Authentic testService [.sign videoSignature, .sign checkSignature]
        (.authorize 1777000010 signedUrl) ∧
      ∀ x ∈ [checkSignature, videoSignature], ∀ y ∈ [checkSignature, videoSignature],
        testService.message x = testService.message y → x.kind = y.kind) ∧
    authorize testService.http testService.service 1777000010 signedUrl = .ok () := by
  have hmac : testService.mac videoSignature = Mirror.videoMac := if_pos rfl
  have hunforged : testService.Unforged [checkSignature, videoSignature]
      (utf8Bytes testService.service) Mirror.videoMac := by
    intro m hm
    refine ⟨_, .tail _ (.head _), ?_, hmac⟩
    by_contra hne
    have hnil : videoHmac (utf8Bytes testService.service) m = [] :=
      if_neg fun heq => hne heq.symm
    exact absurd (hnil.symm.trans hm) (by decide)
  have hinRange : videoSignature.InRange := by
    show (1777000000 : ℕ) < 2 ^ 63
    decide
  have hrun : Trace (AuthStep testService) []
      ([.sign videoSignature, .sign checkSignature] ++
        .authorize 1777000010 signedUrl :: []) [checkSignature, videoSignature] := by
    refine .cons (.sign _ hinRange) (.cons (.sign _ trivial)
      (.cons (.authorize _ _ (by decide) ⟨by decide, by decide⟩ ?_) (.nil _)))
    intro tsStr sigHex sig hcred hsig
    rw [credentials_signedUrl] at hcred
    obtain ⟨-, rfl⟩ := Prod.mk.inj (Except.ok.inj hcred)
    rw [hexDecode_signedUrl] at hsig
    obtain rfl := Option.some.inj hsig
    exact hunforged
  have hauthentic := requests_authentic testService testService_documented hrun
  refine ⟨hauthentic, (hauthentic.1.authorize _ _ rfl).mpr
    ⟨1777000000, signedUrlHex, .head _, credentials_signedUrl, ?_, by decide⟩⟩
  rw [hexDecode_signedUrl]
  exact congrArg some hmac.symm

end VideoStorage.Server
