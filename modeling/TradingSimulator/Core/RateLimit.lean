import TradingSimulator.Library.RollingWindow
import TradingSimulator.Models
import Mathlib.Algebra.Order.Field.Basic
import Mathlib.Algebra.Field.Rat
import Mathlib.Algebra.Order.Ring.Rat

/-!
# The rate limit

`rate_limit` (`app/core/rate_limit.py`) admits a request when its client has not used up the budget
of the endpoint in the last 60 seconds. It keeps the times of the admitted requests in a bucket for
every key and drops old ones when the next request with that key comes.

`serveFromLog` is the limit as it is meant: it keeps every request with its answer and counts. For
times that never decrease the two give the same answers (`serve_eq_serveFromLog`).
-/

namespace TradingSimulator.RateLimit

open RollingWindow

section Keys

variable {K : Type}

/-- A request, with the address of its client and the time at which it is looked at. -/
structure Request (K : Type) where
  ip : String
  path : String
  now : K
  /-- No address has a slash. -/
  ip_noSlash : '/' ∉ ip.toList
  /-- The path of a URL starts with one. -/
  path_slash : path.toList.head? = some '/'

/-- `f"{ip}:{request.url.path}"`. -/
def Request.key (r : Request K) : String := r.ip ++ ":" ++ r.path

/-- In front of the first slash of a key are the address and the colon. -/
theorem Request.takeWhile_key (r : Request K) :
    r.key.toList.takeWhile (· != '/') = r.ip.toList ++ [':'] := by
  obtain ⟨rest, hrest⟩ := List.head?_eq_some_iff.1 r.path_slash
  have hip : ∀ c ∈ r.ip.toList ++ [':'], (c != '/') = true := by
    rw [List.forall_mem_append]
    refine ⟨fun c hc => bne_iff_ne.2 ?_, by simp⟩
    rintro rfl
    exact r.ip_noSlash hc
  rw [Request.key, String.toList_append, String.toList_append, hrest,
    show ":".toList = [':'] by decide +kernel, List.takeWhile_append_of_pos hip,
    List.takeWhile_cons_of_neg (by decide), List.append_nil]

/-- Requests share a key only when they come from one client to one endpoint. -/
theorem Request.key_eq_key_iff {q r : Request K} :
    q.key = r.key ↔ q.ip = r.ip ∧ q.path = r.path := by
  constructor
  · intro h
    -- a path may have a colon in it, an address no slash
    have hfront : q.ip.toList ++ [':'] = r.ip.toList ++ [':'] := by
      rw [← q.takeWhile_key, ← r.takeWhile_key, h]
    have hip : q.ip = r.ip := String.ext (List.append_cancel_right hfront)
    refine ⟨hip, ?_⟩
    rw [Request.key, Request.key, hip] at h
    have hlist := congrArg String.toList h
    simp only [String.toList_append] at hlist
    exact String.ext (List.append_cancel_left hlist)
  · rintro ⟨hip, hpath⟩
    rw [Request.key, Request.key, hip, hpath]

end Keys

section Limit

variable {K : Type} [Field K] [LinearOrder K]

/-- `_WINDOW_SECONDS`. -/
def WINDOW_SECONDS : K := ((60 : ℕ) : K)

/-- The answer to a request over the limit. -/
def tooManyRequests : HttpError where
  statusCode := 429
  detail := "Too many requests. Please slow down and try again shortly."

/-- `rate_limit(max_per_minute)`, on the buckets `_hits`. -/
def rateLimit (maxPerMinute : ℕ) (r : Request K) (hits : String → List K) :
    Except HttpError Unit × (String → List K) :=
  let bucket := evict WINDOW_SECONDS r.now (hits r.key)
  if maxPerMinute ≤ bucket.length then
    (.error tooManyRequests, Function.update hits r.key bucket)
  else (.ok (), Function.update hits r.key (bucket ++ [r.now]))

/-- The answers to a sequence of requests, where every path has its own limit. -/
def serve (limits : String → ℕ) :
    (String → List K) → List (Request K) → List (Request K × Except HttpError Unit)
  | _, [] => []
  | hits, r :: rest =>
    let (answer, hits) := rateLimit (limits r.path) r hits
    (r, answer) :: serve limits hits rest

/-- The times of the admitted requests from one client to one endpoint. -/
def admitted (ip path : String) (seen : List (Request K × Except HttpError Unit)) : List K :=
  (seen.filter fun entry => entry.1.ip = ip ∧ entry.1.path = path ∧ entry.2.isOk).map
    fun entry => entry.1.now

/-- The answer to a request after others with their answers. -/
def ruling (limits : String → ℕ) (seen : List (Request K × Except HttpError Unit))
    (r : Request K) : Except HttpError Unit :=
  if limits r.path ≤ (live WINDOW_SECONDS r.now (admitted r.ip r.path seen)).length then
    .error tooManyRequests
  else .ok ()

/-- The answers of a limit that keeps all requests. -/
def serveFromLog (limits : String → ℕ) :
    List (Request K × Except HttpError Unit) → List (Request K) →
      List (Request K × Except HttpError Unit)
  | _, [] => []
  | seen, r :: rest =>
    (r, ruling limits seen r) :: serveFromLog limits (seen ++ [(r, ruling limits seen r)]) rest

/-! ### The admitted requests -/

omit [Field K] [LinearOrder K] in
theorem admitted_append (ip path : String) (seen more : List (Request K × Except HttpError Unit)) :
    admitted ip path (seen ++ more) = admitted ip path seen ++ admitted ip path more := by
  rw [admitted, admitted, admitted, List.filter_append, List.map_append]

omit [Field K] [LinearOrder K] in
@[simp]
theorem admitted_error (ip path : String) (r : Request K) (e : HttpError) :
    admitted ip path [(r, .error e)] = [] := by
  simp [admitted, Except.isOk, Except.toBool]

omit [Field K] [LinearOrder K] in
theorem admitted_ok_self (r : Request K) : admitted r.ip r.path [(r, .ok ())] = [r.now] := by
  simp [admitted, Except.isOk, Except.toBool]

omit [Field K] [LinearOrder K] in
theorem admitted_ok_other {ip path : String} {r : Request K} (h : ¬(r.ip = ip ∧ r.path = path)) :
    admitted ip path [(r, .ok ())] = [] := by
  simp only [admitted, Except.isOk, Except.toBool]
  grind

/-- The ruling looks at the admitted requests of the same key only. -/
theorem ruling_congr {limits : String → ℕ} {seen seen' : List (Request K × Except HttpError Unit)}
    {r : Request K} (h : admitted r.ip r.path seen = admitted r.ip r.path seen') :
    ruling limits seen r = ruling limits seen' r := by
  rw [ruling, ruling, h]

/-! ### Answers from the log -/

variable {limits : String → ℕ}

/-- The log has the requests in their order. -/
theorem map_fst_serveFromLog (seen : List (Request K × Except HttpError Unit))
    (reqs : List (Request K)) : (serveFromLog limits seen reqs).map Prod.fst = reqs := by
  induction reqs generalizing seen with
  | nil => rfl
  | cons r rest ih => rw [serveFromLog, List.map_cons, ih]

/-- The answers are those to the requests before an entry, its own, and those to the requests behind
it. -/
theorem serveFromLog_split {seen : List (Request K × Except HttpError Unit)}
    {reqs : List (Request K)} {before after : List (Request K × Except HttpError Unit)}
    {entry : Request K × Except HttpError Unit}
    (h : serveFromLog limits seen reqs = before ++ entry :: after) :
    reqs = before.map Prod.fst ++ entry.1 :: after.map Prod.fst ∧
      before = serveFromLog limits seen (before.map Prod.fst) ∧
      entry.2 = ruling limits (seen ++ before) entry.1 ∧
      after = serveFromLog limits (seen ++ before ++ [entry]) (after.map Prod.fst) := by
  induction before generalizing seen reqs with
  | nil =>
    cases reqs with
    | nil => cases h
    | cons r rest =>
      -- the entry is the answer to the first request
      rw [serveFromLog, List.nil_append, List.cons.injEq] at h
      obtain ⟨rfl, rfl⟩ := h
      rw [List.append_nil, map_fst_serveFromLog]
      exact ⟨rfl, rfl, rfl, rfl⟩
  | cons first before ih =>
    cases reqs with
    | nil => cases h
    | cons r rest =>
      rw [serveFromLog, List.cons_append, List.cons.injEq] at h
      obtain ⟨rfl, h⟩ := h
      -- the log that the rest has seen has the first answer at its end
      obtain ⟨hreqs, hbefore, hanswer, hafter⟩ := ih h
      rw [← List.append_cons] at hanswer hafter
      refine ⟨congrArg (r :: ·) hreqs, ?_, hanswer, hafter⟩
      rw [List.map_cons, serveFromLog]
      exact congrArg _ hbefore

/-- The answers depend on the admitted requests only. -/
theorem serveFromLog_congr {seen seen' : List (Request K × Except HttpError Unit)}
    (h : ∀ ip path, admitted ip path seen = admitted ip path seen') (reqs : List (Request K)) :
    serveFromLog limits seen reqs = serveFromLog limits seen' reqs := by
  induction reqs generalizing seen seen' with
  | nil => rfl
  | cons r rest ih =>
    rw [serveFromLog, serveFromLog, ruling_congr (h r.ip r.path)]
    refine congrArg _ (ih fun ip path => ?_)
    rw [admitted_append, admitted_append, h]

/-- The answers to one part of the requests and then to another. -/
theorem serveFromLog_append (seen : List (Request K × Except HttpError Unit))
    (reqs more : List (Request K)) :
    serveFromLog limits seen (reqs ++ more) = serveFromLog limits seen reqs ++
      serveFromLog limits (seen ++ serveFromLog limits seen reqs) more := by
  induction reqs generalizing seen with
  | nil => rw [serveFromLog, List.nil_append, List.nil_append, List.append_nil]
  | cons r rest ih =>
    rw [List.cons_append, serveFromLog, serveFromLog, ih, List.cons_append, List.append_assoc,
      List.singleton_append]

/-- Without a rejected request, all others get the answers they have got with it. -/
theorem serveFromLog_without_rejected {reqs : List (Request K)}
    {before after : List (Request K × Except HttpError Unit)} {r : Request K} {e : HttpError}
    (h : serveFromLog limits [] reqs = before ++ (r, .error e) :: after) :
    serveFromLog limits [] ((before ++ after).map Prod.fst) = before ++ after := by
  obtain ⟨-, hbefore, -, hafter⟩ := serveFromLog_split h
  have hsame : ∀ ip path, admitted ip path ([] ++ before) =
      admitted ip path ([] ++ before ++ [(r, .error e)]) := by
    intro ip path
    rw [admitted_append _ _ _ [(r, .error e)], admitted_error, List.append_nil]
  rw [List.map_append, serveFromLog_append, ← hbefore, serveFromLog_congr hsame, ← hafter]

/-- The answers to the requests with one key are those to these requests alone. -/
theorem filter_serveFromLog (ip path : String)
    (seen : List (Request K × Except HttpError Unit)) (reqs : List (Request K)) :
    (serveFromLog limits seen reqs).filter (fun entry => entry.1.ip = ip ∧ entry.1.path = path) =
      serveFromLog limits (seen.filter fun entry => entry.1.ip = ip ∧ entry.1.path = path)
        (reqs.filter fun r => r.ip = ip ∧ r.path = path) := by
  induction reqs generalizing seen with
  | nil => rfl
  | cons r rest ih =>
    by_cases hkey : r.ip = ip ∧ r.path = path
    · -- a request with this key is answered from the requests with this key
      have hown : ruling limits (seen.filter fun entry => entry.1.ip = ip ∧ entry.1.path = path) r =
          ruling limits seen r := by
        apply ruling_congr
        rw [admitted, admitted, List.filter_filter, hkey.1, hkey.2]
        congr 1
        apply List.filter_congr
        intro entry _
        grind
      rw [serveFromLog, List.filter_cons_of_pos (by simpa using hkey),
        List.filter_cons_of_pos (by simpa using hkey), serveFromLog, ih, hown, List.filter_append,
        List.filter_cons_of_pos (by simpa using hkey), List.filter_nil]
    · -- any other one is on neither side
      rw [serveFromLog, List.filter_cons_of_neg (by simpa using hkey),
        List.filter_cons_of_neg (by simpa using hkey), ih, List.filter_append,
        List.filter_cons_of_neg (by simpa using hkey), List.filter_nil, List.append_nil]

end Limit

section Refinement

variable {K : Type} [Field K] [LinearOrder K] [IsStrictOrderedRing K]

/-- At the time `last`, the bucket of every key follows the admitted requests of the key. -/
def Follows (hits : String → List K) (seen : List (Request K × Except HttpError Unit)) (last : K) :
    Prop :=
  ∀ q : Request K, Tracks WINDOW_SECONDS last (admitted q.ip q.path seen) (hits q.key)

theorem WINDOW_SECONDS_pos : (0 : K) < WINDOW_SECONDS := Nat.cast_pos.2 (by decide)

/-- One request gets the answer of the log, and the buckets follow the log again. -/
theorem Follows.step {hits : String → List K} {seen : List (Request K × Except HttpError Unit)}
    {last : K} (h : Follows hits seen last) (limits : String → ℕ) {r : Request K}
    (hlast : last ≤ r.now) :
    (rateLimit (limits r.path) r hits).1 = ruling limits seen r ∧
      Follows (rateLimit (limits r.path) r hits).2 (seen ++ [(r, ruling limits seen r)]) r.now := by
  have hown := h r
  have hcount := hown.evict_eq hlast
  by_cases hfull : limits r.path ≤
      (live WINDOW_SECONDS r.now (admitted r.ip r.path seen)).length
  · -- rejected: the log of admitted requests stays as it is
    rw [ruling, if_pos hfull, rateLimit, hcount, if_pos hfull]
    refine ⟨rfl, fun q => ?_⟩
    show Tracks _ _ _ (Function.update hits r.key _ q.key)
    rw [admitted_append, admitted_error, List.append_nil]
    by_cases hkey : q.key = r.key
    · obtain ⟨hip, hpath⟩ := Request.key_eq_key_iff.1 hkey
      rw [hkey, Function.update_self, hip, hpath, ← hcount]
      exact hown.evict hlast
    · rw [Function.update_of_ne hkey]
      exact (h q).mono hlast
  · -- admitted: the time goes to the end of the bucket of its key, and of the log
    rw [ruling, if_neg hfull, rateLimit, hcount, if_neg hfull]
    refine ⟨rfl, fun q => ?_⟩
    show Tracks _ _ _ (Function.update hits r.key _ q.key)
    rw [admitted_append]
    by_cases hkey : q.key = r.key
    · obtain ⟨hip, hpath⟩ := Request.key_eq_key_iff.1 hkey
      rw [hkey, Function.update_self, hip, hpath, admitted_ok_self, ← hcount]
      exact hown.concat WINDOW_SECONDS_pos hlast
    · have hother : ¬(r.ip = q.ip ∧ r.path = q.path) :=
        fun hsame => hkey (Request.key_eq_key_iff.2 hsame).symm
      rw [Function.update_of_ne hkey, admitted_ok_other hother, List.append_nil]
      exact (h q).mono hlast

/-- `rate_limit` answers as a limit that keeps all requests would. -/
theorem serve_eq_serveFromLog_of_follows (limits : String → ℕ) {hits : String → List K}
    {seen : List (Request K × Except HttpError Unit)} {last : K} {reqs : List (Request K)}
    (h : Follows hits seen last) (hlast : ∀ r ∈ reqs, last ≤ r.now)
    (hmono : reqs.Pairwise fun q r => q.now ≤ r.now) :
    serve limits hits reqs = serveFromLog limits seen reqs := by
  induction reqs generalizing hits seen last with
  | nil => rfl
  | cons r rest ih =>
    obtain ⟨hfirst, hrest⟩ := List.pairwise_cons.1 hmono
    obtain ⟨hanswer, hfollows⟩ := h.step limits (hlast r List.mem_cons_self)
    rw [serve, serveFromLog]
    dsimp only
    rw [hanswer, ih hfollows hfirst hrest]

/-- The deque of each key is what the log of the run says about it. -/
theorem serve_eq_serveFromLog (limits : String → ℕ) {reqs : List (Request K)}
    (hmono : reqs.Pairwise fun q r => q.now ≤ r.now) :
    serve limits (fun _ => []) reqs = serveFromLog limits [] reqs := by
  cases reqs with
  | nil => rfl
  | cons r rest =>
    refine serve_eq_serveFromLog_of_follows limits (fun q => tracks_nil _ r.now) ?_ hmono
    rw [List.forall_mem_cons]
    exact ⟨le_rfl, (List.pairwise_cons.1 hmono).1⟩

/-! ### The limit is exact -/

variable {limits : String → ℕ}

/-- The admitted requests of a key stay within its limit in every window. -/
theorem within_serveFromLog (ip path : String)
    {seen : List (Request K × Except HttpError Unit)}
    (h : Within WINDOW_SECONDS (limits path) (admitted ip path seen)) (reqs : List (Request K)) :
    Within WINDOW_SECONDS (limits path)
      (admitted ip path (seen ++ serveFromLog limits seen reqs)) := by
  induction reqs generalizing seen with
  | nil =>
    rw [serveFromLog, List.append_nil]
    exact h
  | cons r rest ih =>
    rw [serveFromLog, List.append_cons]
    apply ih
    rw [admitted_append, ruling]
    split
    · -- a request that is refused is none of those that are counted
      rw [admitted_error, List.append_nil]
      exact h
    · rename_i hroom
      -- there was room for it, if it is one of this key
      by_cases hkey : r.ip = ip ∧ r.path = path
      · obtain ⟨rfl, rfl⟩ := hkey
        rw [admitted_ok_self]
        exact h.concat (not_le.1 hroom)
      · rw [admitted_ok_other hkey, List.append_nil]
        exact h

omit [Field K] [IsStrictOrderedRing K] in
/-- The admitted requests before a request are not later. -/
theorem admitted_le {before : List (Request K × Except HttpError Unit)} {r : Request K}
    {rest : List (Request K)}
    (hmono : (before.map Prod.fst ++ r :: rest).Pairwise fun q r => q.now ≤ r.now) :
    ∀ t ∈ admitted r.ip r.path before, t ≤ r.now := by
  rw [admitted, List.forall_mem_map]
  intro entry hentry
  exact (List.pairwise_append.1 hmono).2.2 entry.1
    (List.mem_map_of_mem (List.mem_filter.1 hentry).1) r List.mem_cons_self

omit [IsStrictOrderedRing K] in
/-- A request is rejected when its key has used up its budget in the window that ends with it. -/
theorem ruling_eq_error_iff {seen : List (Request K × Except HttpError Unit)} {r : Request K}
    (hwithin : Within WINDOW_SECONDS (limits r.path) (admitted r.ip r.path seen))
    (hle : ∀ t ∈ admitted r.ip r.path seen, t ≤ r.now) :
    ruling limits seen r = .error tooManyRequests ↔
      ((admitted r.ip r.path seen).filter fun t =>
        r.now - WINDOW_SECONDS < t ∧ t ≤ r.now).length = limits r.path := by
  have hbound := hwithin.length_live_le hle
  rw [live_eq_filter hle] at hbound
  rw [ruling, live_eq_filter hle]
  split
  · rename_i hfull
    exact iff_of_true rfl (le_antisymm hbound hfull)
  · rename_i hroom
    exact iff_of_false (by simp) (Nat.ne_of_lt (not_le.1 hroom))

/-- For requests at times that never decrease: no window of 60 seconds has more admitted requests of
a key than its limit, a request is rejected exactly when the window that ends with it has as many,
the requests of a key are answered as if they were alone, and a rejected request makes no difference
to the others. -/
theorem rateLimit_exact (limits : String → ℕ) (reqs : List (Request K))
    (hmono : reqs.Pairwise fun q r => q.now ≤ r.now) :
    (∀ ip path a, ((admitted ip path (serve limits (fun _ => []) reqs)).filter fun t =>
      a < t ∧ t ≤ a + WINDOW_SECONDS).length ≤ limits path) ∧
    (∀ before r answer after, serve limits (fun _ => []) reqs = before ++ (r, answer) :: after →
      (answer = .error tooManyRequests ↔
        ((admitted r.ip r.path before).filter fun t =>
          r.now - WINDOW_SECONDS < t ∧ t ≤ r.now).length = limits r.path)) ∧
    (∀ ip path, (serve limits (fun _ => []) reqs).filter
        (fun entry => entry.1.ip = ip ∧ entry.1.path = path) =
      serve limits (fun _ => []) (reqs.filter fun r => r.ip = ip ∧ r.path = path)) ∧
    ∀ before r e after, serve limits (fun _ => []) reqs = before ++ (r, .error e) :: after →
      serve limits (fun _ => []) ((before ++ after).map Prod.fst) = before ++ after := by
  have hwithin : ∀ ip path (reqs : List (Request K)),
      Within WINDOW_SECONDS (limits path) (admitted ip path (serveFromLog limits [] reqs)) := by
    intro ip path reqs
    have hempty : Within (WINDOW_SECONDS : K) (limits path) (admitted ip path []) := within_nil _ _
    exact within_serveFromLog ip path hempty reqs
  rw [serve_eq_serveFromLog limits hmono]
  refine ⟨fun ip path => hwithin ip path reqs, ?_, ?_, ?_⟩
  · intro before r answer after h
    obtain ⟨hreqs, hbefore, hanswer, -⟩ := serveFromLog_split h
    rw [show answer = ruling limits before r from hanswer]
    apply ruling_eq_error_iff
    · rw [hbefore]
      exact hwithin _ _ _
    · rw [hreqs] at hmono
      exact admitted_le hmono
  · -- the requests of one key are in order, too
    intro ip path
    rw [serve_eq_serveFromLog limits (hmono.sublist List.filter_sublist)]
    exact filter_serveFromLog ip path [] reqs
  · intro before r e after h
    have hsub : ((before ++ after).map Prod.fst).Sublist reqs := by
      rw [(serveFromLog_split h).1, List.map_append]
      exact (List.sublist_cons_self _ _).append_left _
    rw [serve_eq_serveFromLog limits (hmono.sublist hsub)]
    exact serveFromLog_without_rejected h

/-- A login of one client. -/
def login (now : ℚ) : Request ℚ where
  ip := "10.0.0.1"
  path := "/api/v1/auth/login"
  now
  ip_noSlash := by decide +kernel
  path_slash := by decide +kernel

/-- The second of three logins is rejected, and exactly 60 seconds after the first there is room
again. -/
example : (serve (fun _ => 1) (fun _ => []) [login 0, login 30, login 60]).map Prod.snd =
    [.ok (), .error tooManyRequests, .ok ()] := by
  decide +kernel

/-- Three logins of one address at a limit of one. -/
theorem rateLimit_exact_logins :
    let limits : String → ℕ := fun _ => 1
    let reqs := [login 0, login 30, login 60]
    (∀ ip path a, ((admitted ip path (serve limits (fun _ => []) reqs)).filter fun t =>
      a < t ∧ t ≤ a + WINDOW_SECONDS).length ≤ limits path) ∧
    (∀ before r answer after, serve limits (fun _ => []) reqs = before ++ (r, answer) :: after →
      (answer = .error tooManyRequests ↔
        ((admitted r.ip r.path before).filter fun t =>
          r.now - WINDOW_SECONDS < t ∧ t ≤ r.now).length = limits r.path)) ∧
    (∀ ip path, (serve limits (fun _ => []) reqs).filter
        (fun entry => entry.1.ip = ip ∧ entry.1.path = path) =
      serve limits (fun _ => []) (reqs.filter fun r => r.ip = ip ∧ r.path = path)) ∧
    ∀ before r e after, serve limits (fun _ => []) reqs = before ++ (r, .error e) :: after →
      serve limits (fun _ => []) ((before ++ after).map Prod.fst) = before ++ after := by
  dsimp only
  exact rateLimit_exact _ _ (by decide +kernel)

end Refinement

end TradingSimulator.RateLimit
