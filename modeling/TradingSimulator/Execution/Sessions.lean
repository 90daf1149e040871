import TradingSimulator.Api.Routes
import TradingSimulator.Execution.AccountRows
import TradingSimulator.Library.Runs

/-!
# Concurrent trade requests of one account

Every `POST /trades` request runs in a database session of its own: it loads the user row
(`get_current_user`), runs the risk gate, which locks the position row it finds, locks the user
row, reads the position (`execute_trade`) and commits. The steps of different requests interleave.

Two facts about the storage are part of the model. A query that returns a row the session has
loaded before keeps the attribute values of the first load, locking queries included. Row locks
are exclusive, are held to the end of the session, and reads see committed data.

`step` is total: a label whose session is in another phase, or waits for a lock, leaves the state
alone. A run is therefore a list of labels, in any order.
-/

namespace TradingSimulator

/-- How far a session has come, with what it has loaded so far. -/
inductive SessionPhase where
  | idle
  /-- `get_current_user` has loaded the balance. -/
  | loaded (request : ExecuteTradeRequest ℚ) (balance : ℚ)
  /-- The gate has passed; `cached` is the position row it has loaded and locked. -/
  | checked (request : ExecuteTradeRequest ℚ) (balance : ℚ) (cached : Option (Position ℚ))
  /-- The user row is locked; the balance keeps its loaded value. -/
  | locked (request : ExecuteTradeRequest ℚ) (balance : ℚ) (cached : Option (Position ℚ))
  /-- The position is read and the order is filled, but not committed. -/
  | filled (request : ExecuteTradeRequest ℚ) (balance price : ℚ) (fill : Fill ℚ)
  deriving DecidableEq

/-- The committed rows of the account, the sessions working on it and the locks they hold. -/
structure SharedAccount where
  committed : Account ℚ
  phase : ℕ → SessionPhase
  userLock : Option ℕ
  positionLock : String → Option ℕ

/-- One step of the session `i`. -/
inductive SessionStep where
  | load (i : ℕ) (request : ExecuteTradeRequest ℚ)
  | check (i : ℕ) (market : MarketState ℚ) (now : ℤ)
  | lock (i : ℕ)
  | read (i : ℕ) (market : MarketState ℚ)
  | commit (i : ℕ) (stamp : RowStamp)
  | rollback (i : ℕ)

/-- The session that takes the step. -/
def SessionStep.session : SessionStep → ℕ
  | .load i _ | .check i _ _ | .lock i | .read i _ | .commit i _ | .rollback i => i

/-- The checks of the route and the gate on the committed rows. -/
def passesGate (account : Account ℚ) (request : ExecuteTradeRequest ℚ) (market : MarketState ℚ)
    (now : ℤ) : Bool :=
  if request.quantity ≤ 0 then false
  else
    match validPrice? (market.getPrice request.symbol) with
    | none => false
    | some price =>
      checkRiskLimits (account.riskReads request.symbol now) request.action request.quantity price

/-- A query for the position of `symbol` in a session that has loaded the row `cached`. -/
def readPosition (account : Account ℚ) (cached : Option (Position ℚ)) (symbol : String) :
    Option (Position ℚ) :=
  (account.position? symbol).map fun row =>
    match cached with
    | some old => if old.symbol = row.symbol then old else row
    | none => row

namespace SharedAccount

/-- An account no session works on. -/
def fresh (account : Account ℚ) : SharedAccount where
  committed := account
  phase := fun _ => .idle
  userLock := none
  positionLock := fun _ => none

/-- The session `i` enters a phase. -/
def enter (s : SharedAccount) (i : ℕ) (phase : SessionPhase) : SharedAccount :=
  { s with phase := Function.update s.phase i phase }

/-- The session `i` ends and gives its locks back. -/
def release (s : SharedAccount) (i : ℕ) : SharedAccount where
  committed := s.committed
  phase := Function.update s.phase i .idle
  userLock := if s.userLock = some i then none else s.userLock
  positionLock := fun symbol =>
    if s.positionLock symbol = some i then none else s.positionLock symbol

/-- The session `i` has passed the gate: it loads the position row of the request, if there is
one, and locks it. -/
def takePosition (s : SharedAccount) (i : ℕ) (request : ExecuteTradeRequest ℚ) (balance : ℚ) :
    SharedAccount where
  committed := s.committed
  phase := Function.update s.phase i
    (.checked request balance (s.committed.position? request.symbol))
  userLock := s.userLock
  positionLock :=
    if (s.committed.position? request.symbol).isSome then
      Function.update s.positionLock request.symbol (some i)
    else s.positionLock

/-- The session `i` locks the user row. -/
def takeUser (s : SharedAccount) (i : ℕ) (phase : SessionPhase) : SharedAccount :=
  { s.enter i phase with userLock := some i }

/-- The session `i` commits its rows and ends. -/
def commitTrade (s : SharedAccount) (i : ℕ) (trade : Trade ℚ) (fill : Fill ℚ) : SharedAccount :=
  { s.release i with committed := s.committed.record trade fill }

/-- No other session holds the position row of `symbol`. -/
def MayWrite (s : SharedAccount) (i : ℕ) (symbol : String) : Prop :=
  s.positionLock symbol = none ∨ s.positionLock symbol = some i

instance (s : SharedAccount) (i : ℕ) (symbol : String) : Decidable (s.MayWrite i symbol) :=
  inferInstanceAs (Decidable (_ ∨ _))

/-- The effect of one step; a session that is refused ends. -/
def step (upper : String → String) (s : SharedAccount) : SessionStep → SharedAccount
  | .load i request =>
    match s.phase i with
    -- the authentication of the request loads the whole user row
    | .idle => s.enter i (.loaded request s.committed.balance)
    | _ => s
  | .check i market now =>
    match s.phase i with
    | .loaded request balance =>
      -- the gate waits while another session holds the position row
      if ¬ s.MayWrite i request.symbol then s
      else if passesGate s.committed request market now = false then s.release i
      else s.takePosition i request balance
    | _ => s
  | .lock i =>
    match s.phase i with
    | .checked request balance cached =>
      -- the user row is in the session already, so its balance is not loaded again
      if s.userLock = none then s.takeUser i (.locked request balance cached) else s
    | _ => s
  | .read i market =>
    match s.phase i with
    | .locked request balance cached =>
      match validPrice? (market.getPrice (upper request.symbol)) with
      | none => s.release i
      | some price =>
        -- the engine asks for the row of the upper-cased symbol, the gate for that of the request
        match fillOrder (upper request.action) (upper request.symbol) request.quantity price balance
            (readPosition s.committed cached (upper request.symbol)) with
        | .error _ => s.release i
        | .ok fill => s.enter i (.filled request balance price fill)
    | _ => s
  | .commit i stamp =>
    match s.phase i with
    | .filled request _ price fill =>
      -- the write waits for the lock of the row that it changes
      if s.MayWrite i (upper request.symbol) then
        s.commitTrade i
          (fill.toTrade (upper request.symbol) (upper request.action) request.quantity price stamp)
          fill
      else s
    | _ => s
  | .rollback i => s.release i

/-! ### What a step can do -/

/-- The states one step of the session `i` can lead to. -/
inductive StepEffect (upper : String → String) (s : SharedAccount) (i : ℕ) : SharedAccount → Prop
  | blocked : StepEffect upper s i s
  | loaded (request : ExecuteTradeRequest ℚ) :
      StepEffect upper s i (s.enter i (.loaded request s.committed.balance))
  | checked {request : ExecuteTradeRequest ℚ} (balance : ℚ)
      (hrow : s.MayWrite i request.symbol) (hquantity : 0 < request.quantity) :
      StepEffect upper s i (s.takePosition i request balance)
  | locked {request : ExecuteTradeRequest ℚ} {balance : ℚ} {cached : Option (Position ℚ)}
      (hphase : s.phase i = .checked request balance cached) (hfree : s.userLock = none) :
      StepEffect upper s i (s.takeUser i (.locked request balance cached))
  | filled {request : ExecuteTradeRequest ℚ} {balance price : ℚ} {cached : Option (Position ℚ)}
      {fill : Fill ℚ} (hphase : s.phase i = .locked request balance cached) (hprice : 0 < price)
      (hfill : fillOrder (upper request.action) (upper request.symbol) request.quantity price
        balance (readPosition s.committed cached (upper request.symbol)) = .ok fill) :
      StepEffect upper s i (s.enter i (.filled request balance price fill))
  | committed {request : ExecuteTradeRequest ℚ} {balance price : ℚ} {fill : Fill ℚ}
      (stamp : RowStamp) (hphase : s.phase i = .filled request balance price fill)
      (hrow : s.MayWrite i (upper request.symbol)) :
      StepEffect upper s i (s.commitTrade i
        (fill.toTrade (upper request.symbol) (upper request.action) request.quantity price stamp)
        fill)
  | released : StepEffect upper s i (s.release i)

/-- A request that passes the gate has a positive quantity. -/
theorem quantity_pos_of_passesGate {account : Account ℚ} {request : ExecuteTradeRequest ℚ}
    {market : MarketState ℚ} {now : ℤ} (h : passesGate account request market now = true) :
    0 < request.quantity := by
  rw [passesGate] at h
  split at h
  · cases h
  · next hquantity => exact not_le.mp hquantity

/-- Every step has one of the effects of its session. -/
theorem step_effect (upper : String → String) (s : SharedAccount) (label : SessionStep) :
    StepEffect upper s label.session (s.step upper label) := by
  cases label with
  | load i request =>
    simp only [step, SessionStep.session]
    split
    · exact .loaded request
    · exact .blocked
  | check i market now =>
    simp only [step, SessionStep.session]
    split
    -- the gate reads the committed rows, the session keeps the balance it has loaded
    · next request balance hphase =>
      split
      · -- another session holds the row
        exact .blocked
      · next hrow =>
        split
        · exact .released
        · next hgate =>
          exact .checked balance (not_not.mp hrow)
            (quantity_pos_of_passesGate (Bool.not_eq_false _ ▸ hgate))
    · exact .blocked
  | lock i =>
    simp only [step, SessionStep.session]
    split
    · next hphase =>
      split
      · next hfree => exact .locked hphase hfree
      · exact .blocked
    · exact .blocked
  | read i market =>
    simp only [step, SessionStep.session]
    split
    · next hphase =>
      split
      · -- no valid price
        exact .released
      · next hprice =>
        split
        · -- the fill is refused
          exact .released
        · next hfill => exact .filled hphase (validPrice?_eq_some_iff.mp hprice).2 hfill
    · exact .blocked
  | commit i stamp =>
    simp only [step, SessionStep.session]
    split
    · next hphase =>
      split
      · next hrow => exact .committed stamp hphase hrow
      · exact .blocked
    · exact .blocked
  | rollback i => exact .released

/-! ### What the locks protect -/

/-- The session `i` holds the lock of the position row it has loaded, and the row is still the
committed one. -/
def CacheCurrent (s : SharedAccount) (i : ℕ) (cached : Option (Position ℚ)) : Prop :=
  ∀ row ∈ cached, s.positionLock row.symbol = some i ∧ s.committed.position? row.symbol = some row

/-- What holds of the session `i` in a phase. -/
def PhaseInv (upper : String → String) (s : SharedAccount) (i : ℕ) : SessionPhase → Prop
  | .idle | .loaded _ _ => True
  | .checked request _ cached => 0 < request.quantity ∧ s.CacheCurrent i cached
  | .locked request _ cached =>
      0 < request.quantity ∧ s.CacheCurrent i cached ∧ s.userLock = some i
  | .filled request balance price fill =>
      0 < request.quantity ∧ 0 < price ∧ s.userLock = some i ∧
        fillOrder (upper request.action) (upper request.symbol) request.quantity price balance
          (s.committed.position? (upper request.symbol)) = .ok fill

/-- The invariant of a run: valid committed rows, and what each session relies on. -/
structure Inv (upper : String → String) (s : SharedAccount) : Prop where
  rows : s.committed.RowsValid
  phases : ∀ i, s.PhaseInv upper i (s.phase i)

/-- From `s` to `s'` the session `i` keeps its locks, and no row they protect has changed. -/
structure Protects (s : SharedAccount) (i : ℕ) (s' : SharedAccount) : Prop where
  user : s.userLock = some i → s'.userLock = some i ∧ s'.committed = s.committed
  position : ∀ symbol, s.positionLock symbol = some i →
    s'.positionLock symbol = some i ∧
      s'.committed.position? symbol = s.committed.position? symbol

variable {upper : String → String} {s s' : SharedAccount} {i j : ℕ}

/-- An account no session works on meets the invariant. -/
theorem inv_fresh {account : Account ℚ} (hrows : account.RowsValid) :
    (fresh account).Inv upper :=
  ⟨hrows, fun _ => trivial⟩

/-- What a session relies on stays true while its locks protect it. -/
theorem PhaseInv.of_protects {phase : SessionPhase} (h : s.PhaseInv upper i phase)
    (hprotects : s.Protects i s') : s'.PhaseInv upper i phase := by
  -- a row that was read under its lock is still the committed one
  have hcache : ∀ cached, s.CacheCurrent i cached → s'.CacheCurrent i cached := by
    intro cached hcurrent row hrow
    obtain ⟨hlock, hcommitted⟩ := hcurrent row hrow
    obtain ⟨hlock', hsame⟩ := hprotects.position row.symbol hlock
    exact ⟨hlock', hsame.trans hcommitted⟩
  -- only behind the first lock does a phase rely on the tables
  match phase, h with
  | .idle, _ | .loaded _ _, _ => trivial
  | .checked _ _ _, ⟨hquantity, hcurrent⟩ => exact ⟨hquantity, hcache _ hcurrent⟩
  | .locked _ _ _, ⟨hquantity, hcurrent, huser⟩ =>
    exact ⟨hquantity, hcache _ hcurrent, (hprotects.user huser).1⟩
  | .filled _ _ _ _, ⟨hquantity, hprice, huser, hfill⟩ =>
    obtain ⟨huser', hsame⟩ := hprotects.user huser
    exact ⟨hquantity, hprice, huser', hsame ▸ hfill⟩

/-- A locked cached row is the row a fresh query would load. -/
theorem readPosition_eq {cached : Option (Position ℚ)} (hcurrent : s.CacheCurrent i cached)
    (symbol : String) : readPosition s.committed cached symbol = s.committed.position? symbol := by
  rw [readPosition]
  cases hrow : s.committed.position? symbol with
  | none => rfl
  | some row =>
    obtain rfl := Account.position?_symbol row hrow
    cases cached with
    | none => rfl
    | some old =>
      show some (if old.symbol = row.symbol then old else row) = some row
      by_cases hsame : old.symbol = row.symbol
      · -- the row is locked since it was loaded, so it has not changed
        have hcommitted := (hcurrent old rfl).2
        rw [hsame, hrow] at hcommitted
        rw [if_pos hsame, hcommitted]
      · rw [if_neg hsame]

/-- A step of one session leaves the phase of every other session alone. -/
theorem StepEffect.phase_of_ne (heffect : StepEffect upper s i s') (hne : j ≠ i) :
    s'.phase j = s.phase j := by
  cases heffect <;> first | rfl | exact Function.update_of_ne hne _ _

/-- A step of one session respects the locks of every other session. -/
theorem StepEffect.protects (heffect : StepEffect upper s i s') (hinv : s.Inv upper)
    (hne : j ≠ i) : s.Protects j s' := by
  have hother : some j ≠ some i := fun h => hne (Option.some.inj h)
  have hrelease : s.Protects j (s.release i) := by
    refine ⟨fun huser => ⟨?_, rfl⟩, fun symbol hlock => ⟨?_, rfl⟩⟩
    · rw [release, huser, if_neg hother]
    · simp only [release, hlock, if_neg hother]
  cases heffect with
  | blocked => exact ⟨fun huser => ⟨huser, rfl⟩, fun symbol hlock => ⟨hlock, rfl⟩⟩
  | loaded request => exact ⟨fun huser => ⟨huser, rfl⟩, fun symbol hlock => ⟨hlock, rfl⟩⟩
  | filled hphase hprice hfill =>
    exact ⟨fun huser => ⟨huser, rfl⟩, fun symbol hlock => ⟨hlock, rfl⟩⟩
  | @checked request balance hrow hquantity =>
    refine ⟨fun huser => ⟨huser, rfl⟩, fun symbol hlock => ⟨?_, rfl⟩⟩
    -- the row that the gate locks is not locked by the other session
    have hsymbol : symbol ≠ request.symbol := by
      rintro rfl
      rcases hrow with hfree | hown
      · exact absurd (hfree.symm.trans hlock) (by simp)
      · exact hother (hlock.symm.trans hown)
    simp only [takePosition]
    split
    · rwa [Function.update_of_ne hsymbol]
    · exact hlock
  | locked hphase hfree =>
    refine ⟨fun huser => ?_, fun symbol hlock => ⟨hlock, rfl⟩⟩
    exact absurd (hfree.symm.trans huser) (by simp)
  | @committed request balance price fill stamp hphase hrow =>
    -- the committing session holds the user row, and no other session the position row it writes
    have hfilled := hinv.phases i
    rw [hphase] at hfilled
    obtain ⟨-, -, huser, hfill⟩ := hfilled
    refine ⟨fun huser' => absurd (huser'.symm.trans huser) hother, fun symbol hlock => ?_⟩
    refine ⟨(hrelease.position symbol hlock).1, ?_⟩
    have hsymbol : upper request.symbol ≠ symbol := by
      rintro rfl
      rcases hrow with hfree | hown
      · exact absurd (hfree.symm.trans hlock) (by simp)
      · exact hother (hlock.symm.trans hown)
    exact lookup_writePosition_of_ne (fillOrder_symbol hfill Account.position?_symbol) hsymbol
  | released => exact hrelease

/-- A step establishes what its own session relies on next. -/
theorem StepEffect.phaseInv (heffect : StepEffect upper s i s') (hinv : s.Inv upper) :
    s'.PhaseInv upper i (s'.phase i) := by
  have hphaseInv := hinv.phases i
  cases heffect with
  | blocked => exact hphaseInv
  | loaded request => simp [enter, PhaseInv]
  | @checked request balance hrow hquantity =>
    simp only [takePosition, Function.update_self, PhaseInv, CacheCurrent]
    refine ⟨hquantity, fun row hcached => ?_⟩
    have hsymbol : row.symbol = request.symbol := Account.position?_symbol row hcached
    rw [Option.mem_def] at hcached
    simp [hsymbol, hcached]
  | locked hphase hfree =>
    rw [hphase] at hphaseInv
    simp only [takeUser, enter, Function.update_self, PhaseInv]
    exact ⟨hphaseInv.1, hphaseInv.2, trivial⟩
  | filled hphase hprice hfill =>
    rw [hphase] at hphaseInv
    obtain ⟨hquantity, hcurrent, huser⟩ := hphaseInv
    -- the cached row is the stored one
    rw [readPosition_eq hcurrent] at hfill
    simp only [enter, Function.update_self, PhaseInv]
    exact ⟨hquantity, hprice, huser, hfill⟩
  | committed stamp hphase hrow => simp [commitTrade, release, PhaseInv]
  | released => simp [release, PhaseInv]

/-- Every step keeps the invariant. -/
theorem step_inv (upper : String → String) (s : SharedAccount) (label : SessionStep)
    (hinv : s.Inv upper) : (s.step upper label).Inv upper := by
  have heffect := step_effect upper s label
  refine ⟨?_, fun j => ?_⟩
  · generalize s.step upper label = s' at heffect
    cases heffect with
    | committed stamp hphase hrow =>
      -- the fill was computed from the rows that are committed now
      have hfilled := hinv.phases label.session
      rw [hphase] at hfilled
      obtain ⟨hquantity, hprice, -, hfill⟩ := hfilled
      exact hinv.rows.record hfill rfl hprice hquantity
    | _ => exact hinv.rows
  · -- the session that takes the step, or one whose locks the step respects
    by_cases hown : j = label.session
    · subst hown
      exact heffect.phaseInv hinv
    · rw [heffect.phase_of_ne hown]
      exact (hinv.phases j).of_protects (heffect.protects hinv hown)

/-! ### Cash and book cost over a run -/

/-- Cash and book cost differ from the opening balance by the realized P&L alone. -/
def Conserved (opening : ℚ) (s : SharedAccount) : Prop :=
  s.committed.balance + s.committed.cost = opening + s.committed.realizedPnl

/-- No request is in progress. -/
def Quiescent (s : SharedAccount) : Prop :=
  ∀ i, s.phase i = .idle

/-- A session that commits loaded the balance that is committed now. -/
def FreshCommit (upper : String → String) (s : SharedAccount) : SessionStep → Prop
  | .commit i _ =>
    match s.phase i with
    | .filled request balance _ _ =>
      s.MayWrite i (upper request.symbol) → balance = s.committed.balance
    | _ => True
  | _ => True

/-- Only a commit writes the rows of the account. -/
theorem step_committed {label : SessionStep} (hlabel : ∀ i stamp, label ≠ .commit i stamp) :
    (s.step upper label).committed = s.committed := by
  cases label with
  | commit i stamp => exact absurd rfl (hlabel i stamp)
  | _ =>
    simp only [step]
    repeat' split
    all_goals rfl

/-- A commit keeps the law exactly when it writes from the balance that is committed. -/
theorem commitTrade_conserved_iff {opening balance price : ℚ} {request : ExecuteTradeRequest ℚ}
    {fill : Fill ℚ} (stamp : RowStamp) (hconserved : s.Conserved opening)
    (hfill : fillOrder (upper request.action) (upper request.symbol) request.quantity price balance
      (s.committed.position? (upper request.symbol)) = .ok fill) :
    (s.commitTrade i (fill.toTrade (upper request.symbol) (upper request.action) request.quantity
      price stamp) fill).Conserved opening ↔ balance = s.committed.balance := by
  -- what the fill adds up to starts from the balance of the session, the law from the committed one
  have hcash := fillOrder_conserves hfill
  rw [Conserved] at hconserved
  rw [Conserved, commitTrade, Account.record_balance, Account.cost_record hfill rfl,
    Account.realizedPnl_record]
  simp only [Fill.toTrade]
  constructor <;>
    · intro h
      linarith

/-- One step keeps the law exactly when it does not commit over another balance. -/
theorem step_conserved_iff {opening : ℚ} {label : SessionStep} (hinv : s.Inv upper)
    (hconserved : s.Conserved opening) :
    (s.step upper label).Conserved opening ↔ s.FreshCommit upper label := by
  by_cases hcommit : ∃ i stamp, label = .commit i stamp
  · obtain ⟨i, stamp, rfl⟩ := hcommit
    rw [FreshCommit, step]
    have hphaseInv := hinv.phases i
    cases hphase : s.phase i with
    | filled request balance price fill =>
      rw [hphase] at hphaseInv
      by_cases hrow : s.MayWrite i (upper request.symbol)
      · simp only [hrow, ↓reduceIte, forall_const]
        exact commitTrade_conserved_iff stamp hconserved hphaseInv.2.2.2
      · -- the commit waits
        simpa [hrow] using hconserved
    | _ => exact iff_of_true hconserved trivial
  · have hlabel : ∀ i stamp, label ≠ .commit i stamp :=
      fun i stamp h => hcommit ⟨i, stamp, h⟩
    refine iff_of_true ?_ ?_
    · rwa [Conserved, step_committed hlabel]
    · cases label with
      | commit i stamp => exact absurd rfl (hlabel i stamp)
      | _ => trivial

/-- In every interleaving the law holds throughout exactly when no session commits over a balance
other than the one it has loaded; then it holds whenever no request is in progress. -/
theorem always_conserved_iff (upper : String → String) (opening : ℚ)
    (schedule : List SessionStep) :
    (Runs.Always (step upper) (Conserved opening) (fresh (.opened opening)) schedule ↔
      Runs.EveryStep (step upper) (FreshCommit upper) (fresh (.opened opening)) schedule) ∧
    (Runs.EveryStep (step upper) (FreshCommit upper) (fresh (.opened opening)) schedule →
      Runs.Always (step upper) (fun s => s.Quiescent → s.Conserved opening)
        (fresh (.opened opening)) schedule) := by
  have hinv : (fresh (.opened opening)).Inv upper := inv_fresh (Account.RowsValid.of_nil rfl)
  have hopened : (fresh (.opened opening)).Conserved opening := by
    simp [Conserved, fresh, Account.opened, Account.cost, Account.realizedPnl]
  have hiff : Runs.Always (step upper) (Conserved opening) (fresh (.opened opening)) schedule ↔
      Runs.EveryStep (step upper) (FreshCommit upper) (fresh (.opened opening)) schedule :=
    Runs.always_iff_everyStep (A := fun _ => True)
      (fun s label _ hinv => step_inv upper s label hinv)
      (fun _ _ _ hinv hconserved => step_conserved_iff hinv hconserved) hinv hopened
      fun _ _ => trivial
  exact ⟨hiff, fun hfresh done hdone _ => hiff.mpr hfresh done hdone⟩

/-- A session that takes no step keeps its phase. -/
theorem foldl_phase_of_forall_ne {schedule : List SessionStep} {i : ℕ}
    (h : ∀ label ∈ schedule, label.session ≠ i) :
    (schedule.foldl (step upper) s).phase i = s.phase i := by
  -- along the schedule, from any state
  induction schedule generalizing s with
  | nil => rfl
  | cons label schedule ih =>
    rw [List.forall_mem_cons] at h
    rw [List.foldl_cons, ih h.2]
    exact (step_effect upper s label).phase_of_ne h.1.symm

end SharedAccount

/-! ### Two requests that lose an update -/

/-- Two requests of one account, both authenticated before the first of them commits. -/
def overlappingRequests : List SessionStep :=
  let market : MarketState ℚ := .ofQuotes [("AAPL", 100), ("MSFT", 100)]
  [.load 0 { symbol := "AAPL", action := "BUY", quantity := 1 },
   .load 1 { symbol := "MSFT", action := "BUY", quantity := 1 },
   .check 0 market 0, .lock 0, .read 0 market, .commit 0 ⟨1, 0⟩,
   .check 1 market 0, .lock 1, .read 1 market, .commit 1 ⟨2, 0⟩]

/-- The second commit writes the balance of its own order alone: both positions are held, but only
one of them is paid for. -/
theorem overlappingRequests_lose_update :
    ¬ Runs.Always (SharedAccount.step String.toUpper)
      (fun s => s.Quiescent → s.Conserved 100000) (.fresh (.opened 100000))
      overlappingRequests := by
  intro h
  have hquiescent : (overlappingRequests.foldl (SharedAccount.step String.toUpper)
      (.fresh (.opened 100000))).Quiescent := by
    intro i
    -- only the sessions 0 and 1 take steps
    by_cases hsession : ∀ label ∈ overlappingRequests, label.session ≠ i
    · exact SharedAccount.foldl_phase_of_forall_ne hsession
    · have hi : i = 0 ∨ i = 1 := by
        simp [overlappingRequests, SessionStep.session] at hsession
        omega
      rcases hi with rfl | rfl <;> decide +kernel
  have hlaw := h overlappingRequests List.prefix_rfl hquiescent
  -- the cash of one order is spent, and the shares of two are held
  have hbalance : (overlappingRequests.foldl (SharedAccount.step String.toUpper)
      (.fresh (.opened 100000))).committed.balance = 99900 := by decide +kernel
  have hcost : (overlappingRequests.foldl (SharedAccount.step String.toUpper)
      (.fresh (.opened 100000))).committed.cost = 200 := by decide +kernel
  have hpnl : (overlappingRequests.foldl (SharedAccount.step String.toUpper)
      (.fresh (.opened 100000))).committed.realizedPnl = 0 := by decide +kernel
  rw [SharedAccount.Conserved, hbalance, hcost, hpnl] at hlaw
  norm_num at hlaw

end TradingSimulator
