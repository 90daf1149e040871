import TradingSimulator.Auth.AuthService
import TradingSimulator.Library.Runs

/-!
# Refresh token rotation under concurrency

`AuthService.refresh`, `_issue_tokens` and `logout` as sequences of atomic operations: each Redis
command and each database query is one step, and the steps of different calls interleave.
`refresh_alone` says that one call whose steps run without interruption does what `refresh` does.

The `GET` and the `DELETE` of a rotation are separate steps, and the result of the `DELETE` is not
looked at. `always_singleUse` shows that no refresh token is exchanged twice in a run in which
every rotation still finds the key it deletes; two calls that both read the token before one of
them deletes it exchange it twice (`racingRefreshes_exchange_twice`).
-/

namespace TradingSimulator

/-- What a call does next. -/
inductive TokenCall where
  | idle
  /-- `GET` the record of the presented token. -/
  | reading (token : String)
  /-- Query the user of the record. -/
  | lookingUp (token : String) (userId : ℕ)
  /-- `DELETE` a record that is refused. -/
  | discarding (token : String)
  /-- `DELETE` the record of the token to be exchanged. -/
  | rotating (token : String) (userId : ℕ)
  /-- `SETEX` a new token, in exchange for the old one of a refresh. -/
  | issuing (exchanged : Option String) (userId : ℕ)
  /-- `DELETE` the record of the token of a logout. -/
  | revoking (token : String) (accessJti : Option String)
  /-- `SETEX` the blocklist entry of a logout. -/
  | blocking (jti : String)
  deriving DecidableEq

/-- One step of the call `i`. -/
inductive RotationStep where
  | refresh (i : ℕ) (token : String)
  /-- A registration or a login that has passed its checks. -/
  | login (i : ℕ) (userId : ℕ)
  | logout (i : ℕ) (token accessJti : Option String)
  | get (i : ℕ) (now : ℚ)
  /-- The answer of the database: whether the user exists. -/
  | lookup (i : ℕ) (found : Bool)
  | delete (i : ℕ) (now : ℚ)
  /-- `SETEX` with the token that `generate_refresh_token` has returned. -/
  | setex (i : ℕ) (token : String) (now : ℚ)
  | block (i : ℕ) (now : ℚ)

/-- The call that takes the step. -/
def RotationStep.call : RotationStep → ℕ
  | .refresh i _ | .login i _ | .logout i _ _ | .get i _ | .lookup i _ | .delete i _ | .setex i _ _
  | .block i _ => i

/-- The store, the calls in progress, the refresh tokens ever stored, and the exchanges made. -/
structure RotationState where
  redis : Redis
  calls : ℕ → TokenCall
  issued : List String
  exchanges : List (String × String)

/-- How a logout goes on after its refresh token. -/
def blockOrEnd : Option String → TokenCall
  | none | some "" => .idle
  | some jti => .blocking jti

namespace RotationState

/-- Before the first call. -/
def start : RotationState where
  redis := .empty
  calls := fun _ => .idle
  issued := []
  exchanges := []

/-- The call `i` goes on with `call`, leaving the store `redis`. -/
def proceed (s : RotationState) (i : ℕ) (call : TokenCall) (redis : Redis) : RotationState :=
  { s with calls := Function.update s.calls i call, redis }

/-- The call `i` stores the new token `token` and ends. -/
def store (s : RotationState) (i : ℕ) (exchanged : Option String) (token : String)
    (redis : Redis) : RotationState where
  redis := redis
  calls := Function.update s.calls i .idle
  issued := token :: s.issued
  exchanges :=
    match exchanged with
    | some old => (old, token) :: s.exchanges
    | none => s.exchanges

/-- The effect of one step; a step that is not the next one of its call does nothing. -/
def step (settings : Settings) (s : RotationState) : RotationStep → RotationState
  | .refresh i token =>
    match s.calls i with
    | .idle => if token = "" then s else s.proceed i (.reading token) s.redis
    | _ => s
  | .login i userId =>
    match s.calls i with
    | .idle => s.proceed i (.issuing none userId) s.redis
    | _ => s
  | .logout i token accessJti =>
    match s.calls i with
    | .idle =>
      -- an absent and an empty token are both skipped
      match token with
      | none | some "" => s.proceed i (blockOrEnd accessJti) s.redis
      | some token => s.proceed i (.revoking token accessJti) s.redis
    | _ => s
  | .get i now =>
    match s.calls i with
    | .reading token =>
      match s.redis.get now (.refresh token) with
      -- an unknown token ends the call with an error
      | none | some "" => s.proceed i .idle s.redis
      | some userIdStr =>
        match pyInt userIdStr with
        | none => s.proceed i (.discarding token) s.redis
        | some userId => s.proceed i (.lookingUp token userId) s.redis
    | _ => s
  | .lookup i found =>
    match s.calls i with
    | .lookingUp token userId =>
      if found then s.proceed i (.rotating token userId) s.redis
      else s.proceed i (.discarding token) s.redis
    | _ => s
  | .delete i _ =>
    match s.calls i with
    | .rotating token userId =>
      -- the number of keys that were removed is not looked at
      s.proceed i (.issuing (some token) userId) (s.redis.delete (.refresh token))
    | .discarding token => s.proceed i .idle (s.redis.delete (.refresh token))
    | .revoking token accessJti =>
      s.proceed i (blockOrEnd accessJti) (s.redis.delete (.refresh token))
    | _ => s
  | .setex i token now =>
    match s.calls i with
    | .issuing exchanged userId =>
      -- a generated token is never one that was stored before
      if token ∈ s.issued then s
      else
        s.store i exchanged token
          (s.redis.setex now (.refresh token) (settings.jwtRefreshDays * 86400) (toString userId))
    | _ => s
  | .block i now =>
    match s.calls i with
    | .blocking jti =>
      s.proceed i .idle
        (s.redis.setex now (.blocked jti) (settings.jwtAccessTtlMinutes * 60) "1")
    | _ => s

/-- The other calls are not touched. -/
theorem calls_proceed_of_ne {s : RotationState} {i j : ℕ} (h : j ≠ i) (call : TokenCall)
    (redis : Redis) : (s.proceed i call redis).calls j = s.calls j :=
  Function.update_of_ne h _ _

@[simp] theorem calls_proceed_self (s : RotationState) (i : ℕ) (call : TokenCall) (redis : Redis) :
    (s.proceed i call redis).calls i = call :=
  Function.update_self ..

@[simp] theorem redis_proceed (s : RotationState) (i : ℕ) (call : TokenCall) (redis : Redis) :
    (s.proceed i call redis).redis = redis := rfl

@[simp] theorem issued_proceed (s : RotationState) (i : ℕ) (call : TokenCall) (redis : Redis) :
    (s.proceed i call redis).issued = s.issued := rfl

@[simp] theorem redis_store (s : RotationState) (i : ℕ) (exchanged : Option String)
    (token : String) (redis : Redis) : (s.store i exchanged token redis).redis = redis := rfl

/-- The steps of one refresh, in order. After an error the rest of them does nothing. -/
def refreshSteps (i : ℕ) (token : String) (found : Bool) (newToken : String) (now : ℚ) :
    List RotationStep :=
  [.refresh i token, .get i now, .lookup i found, .delete i now, .setex i newToken now]

/-- A refresh whose steps run without interruption leaves the store as `refresh` leaves it. -/
theorem refresh_alone {Token : Type} (libs : AuthLibs Token) (settings : Settings)
    (users : List User) (s : RotationState) (i : ℕ) (token : String) (random : Randomness)
    (now : ℚ) (found : Bool) (hidle : s.calls i = .idle) (hfresh : random.refreshToken ∉ s.issued)
    (hfound : ∀ value userId, s.redis.get now (.refresh token) = some value →
      pyInt value = some userId → found = (userById users userId).isSome) :
    ((refreshSteps i token found random.refreshToken now).foldl (step settings) s).redis =
      (refresh libs settings ⟨users, s.redis⟩ token random now).2.redis := by
  by_cases htoken : token = ""
  · simp [refreshSteps, step, refresh, hidle, htoken]
  · rcases hget : s.redis.get now (.refresh token) with _ | value
    · simp [refreshSteps, step, refresh, hidle, htoken, hget]
    · by_cases hvalue : value = ""
      · subst hvalue
        simp [refreshSteps, step, refresh, hidle, htoken, hget]
      · rcases hint : pyInt value with _ | userId
        · simp [refreshSteps, step, refresh, hidle, htoken, hget, hint]
        · have hfound := hfound value userId hget hint
          rcases huser : userById users userId with _ | user
          · simp [refreshSteps, step, refresh, hidle, htoken, hget, hint, huser, hfound]
          · -- the row that is found has the id that was looked up
            have hid : user.id = userId := (KeyedRows.mem_of_lookup huser).2
            simp [refreshSteps, step, refresh, issueTokens, hidle, htoken, hget, hint,
              huser, hfound, hfresh, hid]

/-- Every token is exchanged for at most one new one. -/
def SingleUse (s : RotationState) : Prop := (s.exchanges.map Prod.fst).Nodup

/-- A rotation finds the key it deletes. -/
def RotatesStored (s : RotationState) : RotationStep → Prop
  | .delete i now =>
    match s.calls i with
    | .rotating token _ => (s.redis.get now (.refresh token)).isSome
    | _ => True
  | _ => True

instance (s : RotationState) : DecidablePred s.RotatesStored
  | .delete i now =>
    decidable_of_bool
      (match s.calls i with
      | .rotating token _ => (s.redis.get now (.refresh token)).isSome
      | _ => true)
      (by simp only [RotatesStored]; split <;> simp)
  | .refresh _ _ | .login _ _ | .logout _ _ _ | .get _ _ | .lookup _ _ | .setex _ _ _
  | .block _ _ => .isTrue trivial

/-! ### What a step can do -/

/-- The states one step can lead to. -/
inductive StepEffect (s : RotationState) (label : RotationStep) : RotationState → Prop
  | blocked : StepEffect s label s
  /-- The call goes on without an exchange under way; no refresh token is stored. -/
  | proceeded {call : TokenCall} {redis : Redis}
      (hcall : ∀ token userId, call ≠ .issuing (some token) userId)
      (hredis : ∀ token, s.redis.Absent (.refresh token) → redis.Absent (.refresh token)) :
      StepEffect s label (s.proceed label.call call redis)
  | rotated {i : ℕ} {now : ℚ} {token : String} {userId : ℕ} (hlabel : label = .delete i now)
      (hcall : s.calls i = .rotating token userId) :
      StepEffect s label
        (s.proceed i (.issuing (some token) userId) (s.redis.delete (.refresh token)))
  | stored {i : ℕ} {exchanged : Option String} {userId : ℕ} {token : String} (now ttl : ℚ)
      (value : String) (hcall : s.calls i = .issuing exchanged userId)
      (hfresh : token ∉ s.issued) :
      StepEffect s label
        (s.store i exchanged token (s.redis.setex now (.refresh token) ttl value))

/-- A logout does not exchange tokens. -/
theorem blockOrEnd_ne (accessJti : Option String) (token : String) (userId : ℕ) :
    blockOrEnd accessJti ≠ .issuing (some token) userId := by
  unfold blockOrEnd
  split <;> simp

/-- Every step has one of the effects. -/
theorem step_effect (settings : Settings) (s : RotationState) (label : RotationStep) :
    StepEffect s label (s.step settings label) := by
  have hsame : ∀ token, s.redis.Absent (.refresh token) → s.redis.Absent (.refresh token) :=
    fun _ h => h
  have hdelete : ∀ key token, s.redis.Absent (.refresh token) →
      (s.redis.delete key).Absent (.refresh token) := fun key token h => h.delete key
  -- only a rotation's `DELETE` and a `SETEX` of a new token touch the exchanges
  cases label with
  | refresh i token =>
    simp only [step]
    split
    · split
      · exact .blocked
      · exact .proceeded (by simp) hsame
    · exact .blocked
  | login i userId =>
    simp only [step]
    split
    · exact .proceeded (by simp) hsame
    · exact .blocked
  | logout i token accessJti =>
    simp only [step]
    split
    · split
      · exact .proceeded (blockOrEnd_ne accessJti) hsame
      · exact .proceeded (blockOrEnd_ne accessJti) hsame
      · exact .proceeded (by simp) hsame
    · exact .blocked
  | get i now =>
    simp only [step]
    split
    · split
      · exact .proceeded (by simp) hsame
      · exact .proceeded (by simp) hsame
      · split <;> exact .proceeded (by simp) hsame
    · exact .blocked
  | lookup i found =>
    simp only [step]
    split
    · split <;> exact .proceeded (by simp) hsame
    · exact .blocked
  | delete i now =>
    simp only [step]
    split
    · next hcall => exact .rotated rfl hcall
    · exact .proceeded (by simp) (hdelete _)
    · exact .proceeded (blockOrEnd_ne _) (hdelete _)
    · exact .blocked
  | setex i token now =>
    simp only [step]
    split
    · next hcall =>
      split
      · exact .blocked
      · next hfresh => exact .stored now _ _ hcall hfresh
    · exact .blocked
  | block i now =>
    simp only [step]
    split
    · -- a blocklist entry is stored under another key than every refresh token
      exact .proceeded (by simp) fun token h => h.setex (by simp) _ _ _
    · exact .blocked

/-- A `DELETE` that meets the condition finds the token of its rotation. -/
theorem stored_of_rotatesStored {s : RotationState} {i : ℕ} {now : ℚ} {token : String}
    {userId : ℕ} (hcall : s.calls i = .rotating token userId)
    (h : s.RotatesStored (.delete i now)) : ¬ s.redis.Absent (.refresh token) := by
  intro habsent
  simp only [RotatesStored, hcall, habsent.get now] at h
  simp at h

/-! ### The tokens that are spent -/

/-- Some call has deleted the record of the token and has not yet stored the new one. -/
def Exchanging (s : RotationState) (token : String) : Prop :=
  ∃ i userId, s.calls i = .issuing (some token) userId

/-- The token has been exchanged, or is being exchanged. -/
def Spent (s : RotationState) (token : String) : Prop :=
  token ∈ s.exchanges.map Prod.fst ∨ s.Exchanging token

/-- What holds between steps: a spent token has no record and is under exchange by one call at
most. -/
structure RotationInv (s : RotationState) : Prop where
  stored_issued : ∀ token, ¬ s.redis.Absent (.refresh token) → token ∈ s.issued
  spent_issued : ∀ token, s.Spent token → token ∈ s.issued
  spent_absent : ∀ token, s.Spent token → s.redis.Absent (.refresh token)
  exchanging_unique : ∀ i j token u v, s.calls i = .issuing (some token) u →
    s.calls j = .issuing (some token) v → i = j
  exchanging_fresh : ∀ token, s.Exchanging token → token ∉ s.exchanges.map Prod.fst
  singleUse : s.SingleUse

/-- Nothing is stored and nobody holds a token. -/
theorem rotationInv_start : start.RotationInv where
  stored_issued := fun token h => absurd (ExpiringStore.absent_empty _) h
  spent_issued := by rintro token (h | ⟨i, u, h⟩) <;> simp [start] at h
  spent_absent := fun token _ => ExpiringStore.absent_empty _
  exchanging_unique := by intro i j token u v h; simp [start] at h
  exchanging_fresh := by rintro token ⟨i, u, h⟩; simp [start] at h
  singleUse := List.nodup_nil

/-- When a call goes on without an exchange, every exchange under way was under way before. -/
theorem calls_of_proceed_issuing {s : RotationState} {i j : ℕ} {call : TokenCall} {redis : Redis}
    {token : String} {u : ℕ} (hcall : ∀ token userId, call ≠ .issuing (some token) userId)
    (h : (s.proceed i call redis).calls j = .issuing (some token) u) :
    s.calls j = .issuing (some token) u := by
  by_cases hij : j = i
  · subst hij
    rw [calls_proceed_self] at h
    exact absurd h (hcall token u)
  · rwa [calls_proceed_of_ne hij] at h

/-- A step without an exchange keeps the invariant. -/
theorem RotationInv.proceeded {s : RotationState} (hs : s.RotationInv) {i : ℕ} {call : TokenCall}
    {redis : Redis} (hcall : ∀ token userId, call ≠ .issuing (some token) userId)
    (hredis : ∀ token, s.redis.Absent (.refresh token) → redis.Absent (.refresh token)) :
    (s.proceed i call redis).RotationInv := by
  -- the step neither starts an exchange nor ends one, and it stores no record that was absent
  have hexchanging : ∀ token, (s.proceed i call redis).Exchanging token → s.Exchanging token := by
    rintro token ⟨j, u, h⟩
    exact ⟨j, u, calls_of_proceed_issuing hcall h⟩
  have hspent : ∀ token, (s.proceed i call redis).Spent token → s.Spent token := by
    rintro token (h | h)
    · exact .inl h
    · exact .inr (hexchanging token h)
  exact {
    stored_issued := fun token h => hs.stored_issued token fun habsent => h (hredis token habsent)
    spent_issued := fun token h => hs.spent_issued token (hspent token h)
    spent_absent := fun token h => hredis token (hs.spent_absent token (hspent token h))
    exchanging_unique := fun j k token u v hj hk =>
      hs.exchanging_unique j k token u v (calls_of_proceed_issuing hcall hj)
        (calls_of_proceed_issuing hcall hk)
    exchanging_fresh := fun token h => hs.exchanging_fresh token (hexchanging token h)
    singleUse := hs.singleUse }

/-- The `DELETE` of a rotation that still finds its record keeps the invariant: the token was not
spent before. -/
theorem RotationInv.rotated {s : RotationState} (hs : s.RotationInv) {token : String}
    (hstored : ¬ s.redis.Absent (.refresh token)) (i userId : ℕ) :
    (s.proceed i (.issuing (some token) userId)
      (s.redis.delete (.refresh token))).RotationInv := by
  set s' := s.proceed i (.issuing (some token) userId) (s.redis.delete (.refresh token)) with hs'
  have hunspent : ¬ s.Spent token := fun h => hstored (hs.spent_absent token h)
  -- an exchange under way is the new one or an old one
  have hcalls : ∀ j other u, s'.calls j = .issuing (some other) u →
      j = i ∧ other = token ∨ s.calls j = .issuing (some other) u := by
    intro j other u h
    by_cases hij : j = i
    · subst hij
      rw [hs', calls_proceed_self] at h
      simp only [TokenCall.issuing.injEq, Option.some.injEq] at h
      exact .inl ⟨rfl, h.1.symm⟩
    · rw [hs', calls_proceed_of_ne hij] at h
      exact .inr h
  have hspent : ∀ other, s'.Spent other → other = token ∨ s.Spent other := by
    rintro other (h | ⟨j, u, h⟩)
    · exact .inr (.inl h)
    · obtain ⟨-, hother⟩ | hold := hcalls j other u h
      · exact .inl hother
      · exact .inr (.inr ⟨j, u, hold⟩)
  refine
    { stored_issued := fun other h => hs.stored_issued other fun habsent => h (habsent.delete _)
      spent_issued := fun other h => ?_
      spent_absent := fun other h => ?_
      exchanging_unique := fun j k other u v hj hk => ?_
      exchanging_fresh := fun other h => ?_
      singleUse := hs.singleUse }
  · obtain rfl | hold := hspent other h
    · exact hs.stored_issued other hstored
    · exact hs.spent_issued other hold
  · obtain rfl | hold := hspent other h
    · exact ExpiringStore.absent_delete_self _ _
    · exact (hs.spent_absent other hold).delete _
  · -- two calls that exchange `token`: it was not spent, so both are the one that has just begun
    obtain ⟨rfl, rfl⟩ | holdj := hcalls j other u hj
    · obtain ⟨rfl, -⟩ | holdk := hcalls k other v hk
      · rfl
      · exact absurd (.inr ⟨k, v, holdk⟩) hunspent
    · obtain ⟨-, rfl⟩ | holdk := hcalls k other v hk
      · exact absurd (.inr ⟨j, u, holdj⟩) hunspent
      · exact hs.exchanging_unique j k other u v holdj holdk
  · obtain ⟨j, u, h⟩ := h
    obtain ⟨-, rfl⟩ | hold := hcalls j other u h
    · exact fun hmem => hunspent (.inl hmem)
    · exact hs.exchanging_fresh other ⟨j, u, hold⟩

/-- Storing a new token keeps the invariant: an exchange that ends stays spent, and the new token
is not. -/
theorem RotationInv.stored {s : RotationState} (hs : s.RotationInv) {i : ℕ}
    {exchanged : Option String} {userId : ℕ} {token : String} (now ttl : ℚ) (value : String)
    (hcall : s.calls i = .issuing exchanged userId) (hfresh : token ∉ s.issued) :
    (s.store i exchanged token (s.redis.setex now (.refresh token) ttl value)).RotationInv := by
  set s' := s.store i exchanged token (s.redis.setex now (.refresh token) ttl value) with hs'
  -- the call that stores its token is over, every other one is where it was
  have hcalls : ∀ j other u, s'.calls j = .issuing (some other) u →
      j ≠ i ∧ s.calls j = .issuing (some other) u := by
    intro j other u h
    by_cases hij : j = i
    · subst hij
      simp [hs', store] at h
    · have hsame : s'.calls j = s.calls j := Function.update_of_ne hij _ _
      exact ⟨hij, hsame.symm.trans h⟩
  have hexchanges : ∀ other, other ∈ s'.exchanges.map Prod.fst →
      exchanged = some other ∨ other ∈ s.exchanges.map Prod.fst := by
    intro other h
    rcases exchanged with _ | old
    · exact .inr h
    · obtain rfl | hold := List.mem_cons.mp h
      · exact .inl rfl
      · exact .inr hold
  have hspent : ∀ other, s'.Spent other → s.Spent other := by
    rintro other (h | ⟨j, u, h⟩)
    · -- the exchange that ends now was under way
      obtain rfl | hold := hexchanges other h
      · exact .inr ⟨i, userId, hcall⟩
      · exact .inl hold
    · exact .inr ⟨j, u, (hcalls j other u h).2⟩
  refine
    { stored_issued := fun other h => ?_
      spent_issued := fun other h => List.mem_cons_of_mem _ (hs.spent_issued other (hspent other h))
      spent_absent := fun other h => ?_
      exchanging_unique := fun j k other u v hj hk =>
        hs.exchanging_unique j k other u v (hcalls j other u hj).2 (hcalls k other v hk).2
      exchanging_fresh := fun other h => ?_
      singleUse := ?_ }
  · by_cases hother : other = token
    · subst hother
      exact List.mem_cons_self
    · refine List.mem_cons_of_mem _ (hs.stored_issued other fun habsent => h ?_)
      exact habsent.setex (by simpa using hother) _ _ _
  · -- a spent token was issued before, so it is not the new one
    have hother : other ≠ token := fun heq =>
      hfresh (heq ▸ hs.spent_issued other (hspent other h))
    exact (hs.spent_absent other (hspent other h)).setex (by simpa using hother) _ _ _
  · obtain ⟨j, u, h⟩ := h
    obtain ⟨hij, hold⟩ := hcalls j other u h
    intro hmem
    -- two calls never exchange one token, so the exchange that ends is not that of `j`
    obtain rfl | hmem := hexchanges other hmem
    · exact hij (hs.exchanging_unique j i other u userId hold hcall)
    · exact hs.exchanging_fresh other ⟨j, u, hold⟩ hmem
  · rcases exchanged with _ | old
    · exact hs.singleUse
    · exact List.nodup_cons.mpr ⟨hs.exchanging_fresh old ⟨i, userId, hcall⟩, hs.singleUse⟩

/-- Every step whose rotation finds the record it deletes keeps the invariant. -/
theorem RotationInv.step {s : RotationState} (hs : s.RotationInv) (settings : Settings)
    {label : RotationStep} (h : s.RotatesStored label) : (s.step settings label).RotationInv := by
  have heffect := step_effect settings s label
  generalize s.step settings label = s' at heffect
  rcases heffect with - | ⟨hcall, hredis⟩ | ⟨rfl, hcall⟩ | ⟨now, ttl, value, hcall, hfresh⟩
  · exact hs
  · exact hs.proceeded hcall hredis
  · exact hs.rotated (stored_of_rotatesStored hcall h) _ _
  · exact hs.stored now ttl value hcall hfresh

/-! ### Runs -/

/-- In a run in which every rotation finds the record it deletes, no refresh token is ever
exchanged twice. -/
theorem always_singleUse (settings : Settings) (schedule : List RotationStep)
    (h : Runs.EveryStep (step settings) RotatesStored start schedule) :
    Runs.Always (step settings) SingleUse start schedule := by
  have hinv : Runs.Always (step settings) RotationInv start schedule :=
    Runs.always_of_everyStep (fun s label hs hlabel => hs.step settings hlabel)
      rotationInv_start h
  exact fun done hdone => (hinv done hdone).singleUse

/-- One refresh after the other, with the same token. -/
theorem always_singleUse_inSequence :
    Runs.Always (step {}) SingleUse start
      ([.login 0 1, .setex 0 "r1" 0] ++ refreshSteps 1 "r1" true "r2" 1 ++
        refreshSteps 2 "r1" true "r3" 2) := by
  refine always_singleUse {} _ ?_
  simp only [refreshSteps, List.cons_append, List.nil_append, Runs.everyStep_cons]
  -- the second `DELETE` does nothing, as its call has found no record and has ended
  refine ⟨trivial, trivial, trivial, trivial, trivial, ?_, trivial, trivial, trivial, trivial, ?_,
    trivial, Runs.everyStep_nil⟩ <;> decide +kernel

/-- Two refreshes that read the token before either deletes it exchange it twice. -/
theorem racingRefreshes_exchange_twice :
    ¬ Runs.Always (step {}) SingleUse start
      [.login 0 1, .setex 0 "r1" 0, .refresh 1 "r1", .refresh 2 "r1", .get 1 1, .get 2 1,
        .lookup 1 true, .lookup 2 true, .delete 1 1, .delete 2 1, .setex 1 "r2" 1,
        .setex 2 "r3" 1] := by
  intro h
  have hlast := h _ List.prefix_rfl
  revert hlast
  unfold SingleUse
  decide +kernel

end RotationState

end TradingSimulator
