import TradingSimulator.Market.CandleEngine

/-!
# The candles as objects

`_update_candle` (`app/market/candle_engine.py`) changes the open candle in place, and hands a copy
of it to the market state (`app/market/market_state.py`) when its bucket is over. Here every candle
is an object on a heap, and `_active` and the queues of the market state hold references to objects.
No object is shared (`WellFormed`), so that what the references lead to follows the candle engine on
values (`view_update`), and a closed candle is never changed (`IsClosed.run_append`).

Read off the heap, the candles of a symbol and a timeframe are those of its ticks, grouped by the
bucket (`candles_eq_reference`).
-/

namespace TradingSimulator

/-- A call of `_update_candle`. -/
structure CandleCall (K : Type) where
  timeframe : Timeframe
  tick : Tick K

/-- The objects behind the candles. -/
structure CandleHeap (K : Type) where
  /-- The candles, by their address. -/
  objects : List (Candle K)
  /-- `_active`, without the empty dictionaries. -/
  active : String × Timeframe → Option ℕ
  /-- `market_state.candles`. -/
  queues : String × Timeframe → List ℕ

namespace CandleHeap

section Operations

variable {K : Type}

/-- No call has been made. -/
def empty : CandleHeap K := { objects := [], active := fun _ => none, queues := fun _ => [] }

/-- `add_candle` with a new object, on a queue of limited length. -/
def addCandle (heap : CandleHeap K) (key : String × Timeframe) (candle : Candle K) : CandleHeap K :=
  { heap with
    objects := heap.objects ++ [candle]
    queues := Function.update heap.queues key
      ((heap.queues key ++ [heap.objects.length]).rtake MAX_CANDLES) }

/-- A new object becomes the open candle. -/
def openCandle (heap : CandleHeap K) (key : String × Timeframe) (candle : Candle K) :
    CandleHeap K :=
  { heap with
    objects := heap.objects ++ [candle]
    active := Function.update heap.active key (some heap.objects.length) }

/-- The object at an address is changed in place. -/
def write (heap : CandleHeap K) (address : ℕ) (candle : Candle K) : CandleHeap K :=
  { heap with objects := heap.objects.set address candle }

/-- `_update_candle`. -/
def update [LinearOrder K] (heap : CandleHeap K) (call : CandleCall K) : CandleHeap K :=
  let key := (call.tick.symbol, call.timeframe)
  let new := Candle.ofTick call.timeframe.seconds call.tick.price call.tick.ts
  match heap.active key with
  | none => heap.openCandle key new
  | some address =>
    match heap.objects[address]? with
    -- objects are never freed
    | none => heap
    | some candle =>
      if candle.time ≠ bucketStart call.tick.ts call.timeframe.seconds then
        -- the queue gets a copy
        (heap.addCandle key candle).openCandle key new
      else
        heap.write address { candle with
          high := max candle.high call.tick.price
          low := min candle.low call.tick.price
          close := call.tick.price }

/-- The heap after a sequence of calls. -/
def run [LinearOrder K] (calls : List (CandleCall K)) : CandleHeap K := calls.foldl update empty

/-- `get_candles`. -/
def getCandles (heap : CandleHeap K) (key : String × Timeframe) : List (Candle K) :=
  (heap.queues key).filterMap fun address => heap.objects[address]?

/-- The open candle. -/
def activeCandle (heap : CandleHeap K) (key : String × Timeframe) : Option (Candle K) :=
  (heap.active key).bind fun address => heap.objects[address]?

/-- The candles as values. -/
def view (heap : CandleHeap K) : CandleStore K :=
  fun key => { active := heap.activeCandle key, candles := heap.getCandles key }

/-- References lead to objects, and an open candle has no other reference. -/
structure WellFormed (heap : CandleHeap K) : Prop where
  active_lt : ∀ key address, heap.active key = some address → address < heap.objects.length
  queue_lt : ∀ key, ∀ address ∈ heap.queues key, address < heap.objects.length
  active_unique : ∀ key key' address, heap.active key = some address →
    heap.active key' = some address → key = key'
  not_shared : ∀ key key' address, heap.active key = some address → address ∉ heap.queues key'

/-- An object that is not the open candle of any symbol and timeframe. -/
def IsClosed (heap : CandleHeap K) (address : ℕ) : Prop :=
  address < heap.objects.length ∧ ∀ key, heap.active key ≠ some address

theorem WellFormed.isClosed {heap : CandleHeap K} (h : heap.WellFormed) {key : String × Timeframe}
    {address : ℕ} (hmem : address ∈ heap.queues key) : heap.IsClosed address :=
  ⟨h.queue_lt key address hmem, fun key' hactive => h.not_shared key' key address hactive hmem⟩

theorem wellFormed_empty : (empty : CandleHeap K).WellFormed := by
  constructor <;> simp [empty]

/-! ### Single operations -/

variable {heap : CandleHeap K} {key : String × Timeframe} {candle : Candle K}

/-- A closed candle is a new object that only its queue points to. -/
theorem WellFormed.addCandle (h : heap.WellFormed) : (heap.addCandle key candle).WellFormed := by
  -- the queue drops its oldest reference, which harms nothing
  have hqueue : ∀ key', ∀ address ∈ (heap.addCandle key candle).queues key',
      address ∈ heap.queues key' ∨ address = heap.objects.length := by
    intro key' address hmem
    by_cases heq : key' = key
    · subst heq
      simp only [CandleHeap.addCandle, Function.update_self, List.rtake] at hmem
      simpa using List.mem_of_mem_drop hmem
    · simp only [CandleHeap.addCandle, Function.update_of_ne heq] at hmem
      exact Or.inl hmem
  have hlength : (heap.addCandle key candle).objects.length = heap.objects.length + 1 := by
    simp [CandleHeap.addCandle]
  refine ⟨fun key' address hactive => ?_, fun key' address hmem => ?_, h.active_unique,
    fun key' key'' address hactive hmem => ?_⟩
  · have hlt := h.active_lt key' address hactive
    omega
  · rcases hqueue key' address hmem with hold | rfl
    · have hlt := h.queue_lt key' address hold
      omega
    · omega
  · rcases hqueue key'' address hmem with hold | rfl
    · exact h.not_shared key' key'' address hactive hold
    · -- the new address was not in use before
      exact absurd (h.active_lt key' _ hactive) (lt_irrefl _)

/-- A new object is active under its key and in no queue. -/
theorem WellFormed.openCandle (h : heap.WellFormed) : (heap.openCandle key candle).WellFormed := by
  -- the address of the new object is the only one that is not from before
  have hactive : ∀ key' address, (heap.openCandle key candle).active key' = some address →
      (key' = key ∧ address = heap.objects.length) ∨ heap.active key' = some address := by
    intro key' address hsome
    by_cases heq : key' = key
    · subst heq
      simp only [CandleHeap.openCandle, Function.update_self, Option.some.injEq] at hsome
      exact Or.inl ⟨rfl, hsome.symm⟩
    · simp only [CandleHeap.openCandle, Function.update_of_ne heq] at hsome
      exact Or.inr hsome
  have hlength : (heap.openCandle key candle).objects.length = heap.objects.length + 1 := by
    simp [CandleHeap.openCandle]
  refine ⟨fun key' address hsome => ?_, fun key' address hmem => ?_,
    fun key' key'' address hsome hsome' => ?_, fun key' key'' address hsome hmem => ?_⟩
  · rcases hactive key' address hsome with ⟨-, rfl⟩ | hold
    · omega
    · have hlt := h.active_lt key' address hold
      omega
  · have hlt := h.queue_lt key' address hmem
    omega
  · rcases hactive key' address hsome with ⟨rfl, rfl⟩ | hold
    · rcases hactive key'' _ hsome' with ⟨rfl, -⟩ | hold'
      · rfl
      · exact absurd (h.active_lt key'' _ hold') (lt_irrefl _)
    · rcases hactive key'' address hsome' with ⟨-, rfl⟩ | hold'
      · exact absurd (h.active_lt key' _ hold) (lt_irrefl _)
      · exact h.active_unique key' key'' address hold hold'
  · rcases hactive key' address hsome with ⟨-, rfl⟩ | hold
    · exact absurd (h.queue_lt key'' _ hmem) (lt_irrefl _)
    · exact h.not_shared key' key'' address hold hmem

/-- A write to an object changes no reference. -/
theorem WellFormed.write (h : heap.WellFormed) (address : ℕ) :
    (heap.write address candle).WellFormed := by
  have hlength : (heap.write address candle).objects.length = heap.objects.length := by
    simp [CandleHeap.write]
  refine ⟨fun key' address' hactive => ?_, fun key' address' hmem => ?_, h.active_unique,
    h.not_shared⟩
  · exact hlength ▸ h.active_lt key' address' hactive
  · exact hlength ▸ h.queue_lt key' address' hmem

theorem IsClosed.addCandle {address : ℕ} (h : heap.IsClosed address) :
    (heap.addCandle key candle).IsClosed address := by
  refine ⟨?_, h.2⟩
  simpa [CandleHeap.addCandle] using h.1.trans (Nat.lt_succ_self _)

/-- What is closed does not become active again. -/
theorem IsClosed.openCandle {address : ℕ} (h : heap.IsClosed address) :
    (heap.openCandle key candle).IsClosed address := by
  refine ⟨?_, fun key' hactive => ?_⟩
  · simpa [CandleHeap.openCandle] using h.1.trans (Nat.lt_succ_self _)
  · by_cases heq : key' = key
    · subst heq
      simp only [CandleHeap.openCandle, Function.update_self, Option.some.injEq] at hactive
      exact absurd h.1 (by omega)
    · simp only [CandleHeap.openCandle, Function.update_of_ne heq] at hactive
      exact h.2 key' hactive

/-! ### What the references lead to -/

/-- Old references lead to the same objects after a new one has been made. -/
theorem getElem?_objects_concat {objects : List (Candle K)} {address : ℕ}
    (h : address < objects.length) (candle : Candle K) :
    (objects ++ [candle])[address]? = objects[address]? :=
  List.getElem?_append_left h

/-- A new object does not change what the old addresses point at. -/
theorem filterMap_objects_concat {objects : List (Candle K)} {addresses : List ℕ}
    (h : ∀ address ∈ addresses, address < objects.length) (candle : Candle K) :
    (addresses.filterMap fun address => (objects ++ [candle])[address]?) =
      addresses.filterMap fun address => objects[address]? :=
  List.filterMap_congr fun address hmem => getElem?_objects_concat (h address hmem) candle

/-- Addresses that are in use are read one by one. -/
theorem map_some_filterMap_objects {objects : List (Candle K)} {addresses : List ℕ}
    (h : ∀ address ∈ addresses, address < objects.length) :
    (addresses.filterMap fun address => objects[address]?).map some =
      addresses.map fun address => objects[address]? := by
  induction addresses with
  | nil => rfl
  | cons address addresses ih =>
    obtain ⟨hlt, hrest⟩ := List.forall_mem_cons.mp h
    have hsome : objects[address]? = some objects[address] := List.getElem?_eq_getElem hlt
    rw [List.filterMap_cons_some hsome, List.map_cons, List.map_cons, ih hrest, hsome]

/-- The last references lead to the last objects. -/
theorem filterMap_rtake {objects : List (Candle K)} {addresses : List ℕ}
    (h : ∀ address ∈ addresses, address < objects.length) (max : ℕ) :
    ((addresses.rtake max).filterMap fun address => objects[address]?) =
      (addresses.filterMap fun address => objects[address]?).rtake max := by
  have hmap := map_some_filterMap_objects h
  have hlength := congrArg List.length hmap
  simp only [List.length_map] at hlength
  apply List.map_injective_iff.mpr (Option.some_injective (Candle K))
  rw [List.rtake, List.rtake, hlength, List.map_drop, hmap, ← List.map_drop]
  exact map_some_filterMap_objects fun address hmem => h address (List.mem_of_mem_drop hmem)

/-- A closed candle joins the queue of its key, and no other series changes. -/
theorem view_addCandle (h : heap.WellFormed) (key : String × Timeframe) (candle : Candle K) :
    (heap.addCandle key candle).view = Function.update heap.view key
      { heap.view key with
        candles :=
          TradingSimulator.addCandle (some MAX_CANDLES) (heap.getCandles key) candle } := by
  -- the copy is a new object, so no reference to an active candle sees it
  have hactive : ∀ key',
      (heap.addCandle key candle).activeCandle key' = heap.activeCandle key' := by
    intro key'
    simp only [activeCandle, CandleHeap.addCandle]
    cases hsome : heap.active key' with
    | none => rfl
    | some address => exact getElem?_objects_concat (h.active_lt key' address hsome) candle
  ext key' : 1
  by_cases heq : key' = key
  · subst heq
    have hvalid : ∀ address ∈ heap.queues key' ++ [heap.objects.length],
        address < (heap.objects ++ [candle]).length := by
      intro address hmem
      rw [List.length_append, List.length_singleton]
      rcases List.mem_append.mp hmem with hold | hnew
      · exact (h.queue_lt key' address hold).trans (Nat.lt_succ_self _)
      · rw [List.mem_singleton.mp hnew]
        exact Nat.lt_succ_self _
    have hqueue : (heap.addCandle key' candle).getCandles key' =
        TradingSimulator.addCandle (some MAX_CANDLES) (heap.getCandles key') candle := by
      simp only [getCandles, CandleHeap.addCandle, Function.update_self,
        TradingSimulator.addCandle]
      rw [filterMap_rtake hvalid, List.filterMap_append,
        filterMap_objects_concat (h.queue_lt key')]
      simp
    rw [Function.update_self, view, hactive, hqueue]
    rfl
  · rw [Function.update_of_ne heq, view, view, hactive]
    simp only [getCandles, CandleHeap.addCandle, Function.update_of_ne heq,
      filterMap_objects_concat (h.queue_lt key')]

/-- The candle that is opened is the active one of its key. -/
theorem view_openCandle (h : heap.WellFormed) (key : String × Timeframe) (candle : Candle K) :
    (heap.openCandle key candle).view =
      Function.update heap.view key { heap.view key with active := some candle } := by
  have hqueue : ∀ key', (heap.openCandle key candle).getCandles key' = heap.getCandles key' :=
    fun key' => filterMap_objects_concat (h.queue_lt key') candle
  ext key' : 1
  by_cases heq : key' = key
  · subst heq
    have hactive : (heap.openCandle key' candle).activeCandle key' = some candle := by
      simp [activeCandle, CandleHeap.openCandle]
    rw [Function.update_self, view, hqueue, hactive]
    rfl
  · rw [Function.update_of_ne heq, view, view, hqueue]
    simp only [activeCandle, CandleHeap.openCandle, Function.update_of_ne heq]
    cases hsome : heap.active key' with
    | none => rfl
    | some address =>
      rw [Option.bind_some, Option.bind_some,
        getElem?_objects_concat (h.active_lt key' address hsome)]

/-- A write to the active object of a key is seen in the series of this key only. -/
theorem view_write (h : heap.WellFormed) {address : ℕ} (hactive : heap.active key = some address)
    (candle : Candle K) :
    (heap.write address candle).view =
      Function.update heap.view key { heap.view key with active := some candle } := by
  have hother : ∀ other, other ≠ address →
      (heap.write address candle).objects[other]? = heap.objects[other]? :=
    fun other hne => List.getElem?_set_ne hne.symm
  -- no queue refers to the open candle, so the closed candles stay
  have hqueue : ∀ key', (heap.write address candle).getCandles key' = heap.getCandles key' :=
    fun key' => List.filterMap_congr fun other hmem =>
      hother other fun heq => h.not_shared key key' address hactive (heq ▸ hmem)
  ext key' : 1
  -- the key of the candle, and the others
  by_cases heq : key' = key
  · subst heq
    have hopen : (heap.write address candle).activeCandle key' = some candle := by
      simp only [activeCandle, write, hactive, Option.bind_some]
      exact List.getElem?_set_self (h.active_lt key' address hactive)
    rw [Function.update_self, view, hqueue, hopen]
    rfl
  · have hopen : (heap.write address candle).activeCandle key' = heap.activeCandle key' := by
      show ((heap.active key').bind fun other => (heap.write address candle).objects[other]?) =
        (heap.active key').bind fun other => heap.objects[other]?
      cases hsome : heap.active key' with
      | none => rfl
      | some other =>
        -- two keys do not share an open candle
        refine hother other fun hsame => heq ?_
        exact h.active_unique key' key address (hsame ▸ hsome) hactive
    rw [Function.update_of_ne heq, view, view, hqueue, hopen]

end Operations

/-! ### Calls -/

section Calls

variable {K : Type} [LinearOrder K]

/-- A call keeps the references apart. -/
theorem WellFormed.update {heap : CandleHeap K} (h : heap.WellFormed) (call : CandleCall K) :
    (heap.update call).WellFormed := by
  unfold CandleHeap.update
  dsimp only
  split
  · exact h.openCandle
  · split
    · exact h
    · split_ifs
      · exact h.addCandle.openCandle
      · exact h.write _

/-- What a call does to the objects is what the candle engine does to the values. -/
theorem view_update {heap : CandleHeap K} (h : heap.WellFormed) (call : CandleCall K) :
    (heap.update call).view = updateCandle (some MAX_CANDLES) heap.view call.tick.symbol
      call.timeframe call.tick.price call.tick.ts := by
  set key := (call.tick.symbol, call.timeframe) with hkey
  unfold CandleHeap.update updateCandle CandleSeries.update
  dsimp only
  rw [← hkey]
  have hview : (heap.view key).active =
      (heap.active key).bind fun address => heap.objects[address]? := rfl
  have hcandles : (heap.view key).candles = heap.getCandles key := rfl
  cases hactive : heap.active key with
  | none =>
    rw [hactive, Option.bind_none] at hview
    simp only [hview]
    exact view_openCandle h key _
  | some address =>
    have hlt := h.active_lt key address hactive
    have hobject : heap.objects[address]? = some heap.objects[address] :=
      List.getElem?_eq_getElem hlt
    rw [hactive, Option.bind_some, hobject] at hview
    simp only [hview, hobject]
    split_ifs with htime
    · -- the bucket is over
      rw [view_openCandle h.addCandle, view_addCandle h, Function.update_idem,
        Function.update_self, hcandles]
    · exact view_write h hactive _

/-- A call does not change an object that is not an open candle, nor does it open it again. -/
theorem IsClosed.update {heap : CandleHeap K} {address : ℕ} (h : heap.IsClosed address)
    (call : CandleCall K) : (heap.update call).IsClosed address ∧
      (heap.update call).objects[address]? = heap.objects[address]? := by
  unfold CandleHeap.update
  dsimp only
  split
  · -- the first tick opens a candle
    exact ⟨h.openCandle, getElem?_objects_concat h.1 _⟩
  · rename_i current hactive
    split
    · exact ⟨h, rfl⟩
    · split_ifs
      · -- the bucket is over: its candle is queued, and the next one opened
        refine ⟨h.addCandle.openCandle, ?_⟩
        show ((heap.objects ++ [_]) ++ [_])[address]? = heap.objects[address]?
        rw [List.append_assoc, List.getElem?_append_left h.1]
      · -- a tick in the bucket is written to the open candle
        have hne : current ≠ address := fun heq => h.2 _ (heq ▸ hactive)
        refine ⟨⟨?_, h.2⟩, List.getElem?_set_ne hne⟩
        simpa [CandleHeap.write] using h.1

theorem run_concat (calls : List (CandleCall K)) (call : CandleCall K) :
    run (calls ++ [call]) = (run calls).update call := by
  rw [run, List.foldl_append]
  rfl

/-- The heap of every run is well formed. -/
theorem wellFormed_run (calls : List (CandleCall K)) : (run calls).WellFormed := by
  induction calls using List.reverseRecOn with
  | nil => exact wellFormed_empty
  | append_singleton calls call ih =>
    rw [run_concat]
    exact ih.update call

/-- The prices and times that were fed to a symbol and a timeframe. -/
def ticksOf (calls : List (CandleCall K)) (symbol : String) (timeframe : Timeframe) :
    List (Tick K) :=
  (calls.filter fun call => call.tick.symbol = symbol ∧ call.timeframe = timeframe).map
    CandleCall.tick

/-- The candles of a symbol and a timeframe are made of the ticks that were fed to it. -/
theorem view_run (calls : List (CandleCall K)) (symbol : String) (timeframe : Timeframe) :
    (run calls).view (symbol, timeframe) =
      (ticksOf calls symbol timeframe).foldl
        (fun series tick =>
          series.update (some MAX_CANDLES) timeframe.seconds tick.price tick.ts)
        CandleSeries.empty := by
  induction calls using List.reverseRecOn with
  | nil => rfl
  | append_singleton calls call ih =>
    rw [run_concat, view_update (wellFormed_run calls), updateCandle, ticksOf, List.filter_append,
      List.map_append, List.foldl_append, ← ticksOf, ← ih]
    -- the call is about this series, or about another one
    by_cases hkey : call.tick.symbol = symbol ∧ call.timeframe = timeframe
    · obtain ⟨rfl, rfl⟩ := hkey
      simp
    · have hne : (symbol, timeframe) ≠ (call.tick.symbol, call.timeframe) := by
        intro heq
        rw [Prod.mk.injEq] at heq
        exact hkey ⟨heq.1.symm, heq.2.symm⟩
      rw [Function.update_of_ne hne]
      simp [hkey]

/-- An object that is not an open candle stays what it is, whatever follows. -/
theorem IsClosed.run_append {calls : List (CandleCall K)} {address : ℕ}
    (h : (run calls).IsClosed address) (more : List (CandleCall K)) :
    (run (calls ++ more)).IsClosed address ∧
      (run (calls ++ more)).objects[address]? = (run calls).objects[address]? := by
  induction more using List.reverseRecOn with
  | nil => rw [List.append_nil]; exact ⟨h, rfl⟩
  | append_singleton more call ih =>
    obtain ⟨hclosed, hsame⟩ := ih
    rw [← List.append_assoc, run_concat]
    obtain ⟨hnext, hobject⟩ := hclosed.update call
    exact ⟨hnext, hobject.trans hsame⟩

end Calls

end CandleHeap

/-! ### The reference -/

section Reference

variable {K : Type} [LinearOrder K]

/-- The candle of a group of ticks: the first price, the highest, the lowest and the last one. -/
def Candle.ofGroup (tfSeconds : ℕ) (group : List (Tick K)) : Option (Candle K) := do
  let first ← group.head?
  let high ← (group.map Tick.price).max?
  let low ← (group.map Tick.price).min?
  let last ← group.getLast?
  return {
    time := bucketStart first.ts tfSeconds
    openPrice := first.price
    high
    low
    close := last.price }

/-- The ticks of every bucket. -/
def tickGroups (tfSeconds : ℕ) (ticks : List (Tick K)) : List (List (Tick K)) :=
  KeyedRuns.groups (fun tick => bucketStart tick.ts tfSeconds) ticks

/-- The candles of the buckets. -/
def referenceCandles (tfSeconds : ℕ) (ticks : List (Tick K)) : List (Candle K) :=
  (tickGroups tfSeconds ticks).filterMap (Candle.ofGroup tfSeconds)

/-- A later time is not in an earlier bucket. -/
theorem bucketStart_mono (tfSeconds : ℕ) {a b : ℕ} (h : a ≤ b) :
    bucketStart a tfSeconds ≤ bucketStart b tfSeconds := by
  have hstart : ∀ ts, bucketStart ts tfSeconds = tfSeconds * (ts / tfSeconds) := by
    intro ts
    have hdiv := Nat.div_add_mod ts tfSeconds
    unfold bucketStart
    omega
  rw [hstart, hstart]
  exact Nat.mul_le_mul_left tfSeconds (Nat.div_le_div_right h)

/-- The later ticks of a bucket move the highest, the lowest and the last price. -/
theorem foldl_merge_ofTick (tfSeconds : ℕ) (first : Tick K) (rest : List (Tick K)) :
    (rest.map fun tick => Candle.ofTick tfSeconds tick.price tick.ts).foldl Candle.merge
        (Candle.ofTick tfSeconds first.price first.ts) =
      { time := bucketStart first.ts tfSeconds
        openPrice := first.price
        high := (rest.map Tick.price).foldl max first.price
        low := (rest.map Tick.price).foldl min first.price
        close := ((first :: rest).getLast (List.cons_ne_nil _ _)).price } := by
  induction rest using List.reverseRecOn with
  | nil => rfl
  | append_singleton rest last ih =>
    rw [List.map_append, List.foldl_append, ih]
    simp [Candle.merge, Candle.ofTick]

/-- Merging the candles of single ticks gives the candle of their group. -/
theorem mergeAll_ofTick (tfSeconds : ℕ) (group : List (Tick K)) :
    KeyedRuns.mergeAll Candle.merge
        (group.map fun tick => Candle.ofTick tfSeconds tick.price tick.ts) =
      Candle.ofGroup tfSeconds group := by
  cases group with
  | nil => rfl
  | cons first rest =>
    rw [List.map_cons, KeyedRuns.mergeAll, foldl_merge_ofTick, Candle.ofGroup, List.map_cons,
      List.max?_cons', List.min?_cons', List.getLast?_eq_some_getLast (List.cons_ne_nil _ _)]
    rfl

variable {ticks : List (Tick K)} (hmono : ticks.Pairwise fun a b => a.ts ≤ b.ts)

include hmono

omit [LinearOrder K] in
/-- The single ticks as candles come in the order of their buckets. -/
theorem pairwise_ofTick (tfSeconds : ℕ) :
    (ticks.map fun tick => Candle.ofTick tfSeconds tick.price tick.ts).Pairwise
      fun a b => a.time ≤ b.time := by
  rw [List.pairwise_map]
  exact hmono.imp fun h => bucketStart_mono tfSeconds h

/-- The candles of single ticks, collected by their bucket, are those of the buckets. -/
theorem collect_eq_reference (tfSeconds : ℕ) :
    KeyedRuns.collect Candle.time Candle.merge
        (ticks.map fun tick => Candle.ofTick tfSeconds tick.price tick.ts) =
      referenceCandles tfSeconds ticks := by
  rw [KeyedRuns.collect_eq_groups Candle.merge_time (pairwise_ofTick hmono tfSeconds),
    KeyedRuns.groups_map, List.filterMap_map]
  refine List.filterMap_congr fun group _ => ?_
  exact mergeAll_ofTick tfSeconds group

/-- The buckets come in increasing order. -/
theorem pairwise_reference (tfSeconds : ℕ) :
    (referenceCandles tfSeconds ticks).Pairwise fun a b => a.time < b.time := by
  rw [← collect_eq_reference hmono]
  exact KeyedRuns.pairwise_collect Candle.merge_time (pairwise_ofTick hmono tfSeconds)

omit hmono in
/-- Every bucket has a candle. -/
theorem map_ofGroup_tickGroups (tfSeconds : ℕ) (ticks : List (Tick K)) :
    (tickGroups tfSeconds ticks).map (Candle.ofGroup tfSeconds) =
      (referenceCandles tfSeconds ticks).map some := by
  have hsome : ∀ group ∈ tickGroups tfSeconds ticks,
      ∃ candle, Candle.ofGroup tfSeconds group = some candle := by
    intro group hgroup
    obtain ⟨k, hk, rfl⟩ := List.mem_map.mp hgroup
    obtain ⟨tick, htick, rfl⟩ := List.mem_map.mp (List.mem_dedup.mp hk)
    have hmem : tick ∈ ticks.filter fun row =>
        bucketStart row.ts tfSeconds = bucketStart tick.ts tfSeconds :=
      List.mem_filter.mpr ⟨htick, by simp⟩
    obtain ⟨first, rest, heq⟩ := List.exists_cons_of_ne_nil (List.ne_nil_of_mem hmem)
    rw [heq, ← mergeAll_ofTick]
    exact ⟨_, rfl⟩
  rw [referenceCandles]
  generalize tickGroups tfSeconds ticks = groups at hsome
  induction groups with
  | nil => rfl
  | cons group groups ih =>
    obtain ⟨⟨candle, hcandle⟩, hrest⟩ := List.forall_mem_cons.mp hsome
    rw [List.map_cons, List.filterMap_cons_some hcandle, List.map_cons, ih hrest, hcandle]

/-- The engine on values has the candles of the buckets, the last one open. -/
theorem foldl_update_eq_reference (tfSeconds : ℕ) :
    ticks.foldl
        (fun series tick => series.update (some MAX_CANDLES) tfSeconds tick.price tick.ts)
        CandleSeries.empty =
      { active := (referenceCandles tfSeconds ticks).getLast?
        candles := (referenceCandles tfSeconds ticks).dropLast.rtake MAX_CANDLES } := by
  obtain ⟨hopen, hbars⟩ := CandleSeries.bars_foldl tfSeconds ticks
  rw [collect_eq_reference hmono, CandleSeries.bars] at hbars
  -- the bound on the queue only cuts what the unbounded engine has
  rw [CandleSeries.foldl_some]
  generalize ticks.foldl
    (fun series tick => series.update none tfSeconds tick.price tick.ts) CandleSeries.empty =
      series at hopen hbars
  obtain ⟨active, candles⟩ := series
  cases active with
  | none =>
    -- without an open candle there has been no tick
    obtain rfl : candles = [] := hopen rfl
    rw [← hbars]
    simp [List.rtake]
  | some candle =>
    rw [← hbars]
    simp

omit hmono in
/-- For every symbol and timeframe whose ticks come in the order of their times, the market state
holds the candles of the last `500` closed buckets, and the candle of the last bucket is open. The
buckets are those of the grouping of the ticks, in increasing order, every tick is in one group, and
a candle that the market state has been given never changes. -/
theorem candles_eq_reference (calls : List (CandleCall K)) (symbol : String)
    (timeframe : Timeframe)
    (hmono : (CandleHeap.ticksOf calls symbol timeframe).Pairwise fun a b => a.ts ≤ b.ts) :
    let ticks := CandleHeap.ticksOf calls symbol timeframe
    let reference := referenceCandles timeframe.seconds ticks
    (CandleHeap.run calls).getCandles (symbol, timeframe) = reference.dropLast.rtake 500 ∧
      (CandleHeap.run calls).activeCandle (symbol, timeframe) = reference.getLast? ∧
      (tickGroups timeframe.seconds ticks).map (Candle.ofGroup timeframe.seconds) =
        reference.map some ∧
      (tickGroups timeframe.seconds ticks).flatten = ticks ∧
      (reference.Pairwise fun a b => a.time < b.time) ∧
      ∀ more, ∀ address ∈ (CandleHeap.run calls).queues (symbol, timeframe),
        (CandleHeap.run (calls ++ more)).objects[address]? =
          (CandleHeap.run calls).objects[address]? := by
  intro ticks reference
  have hview := CandleHeap.view_run calls symbol timeframe
  rw [foldl_update_eq_reference hmono, show MAX_CANDLES = 500 from rfl] at hview
  have hcandles : (CandleHeap.run calls).getCandles (symbol, timeframe) =
      reference.dropLast.rtake 500 := by
    rw [CandleHeap.view] at hview
    exact (CandleSeries.mk.inj hview).2
  have hbuckets : ticks.Pairwise fun a b =>
      bucketStart a.ts timeframe.seconds ≤ bucketStart b.ts timeframe.seconds :=
    hmono.imp fun h => bucketStart_mono timeframe.seconds h
  refine ⟨hcandles, congrArg CandleSeries.active hview,
    map_ofGroup_tickGroups timeframe.seconds ticks, KeyedRuns.flatten_groups hbuckets,
    pairwise_reference hmono timeframe.seconds, fun more address hmem => ?_⟩
  exact (((CandleHeap.wellFormed_run calls).isClosed hmem).run_append more).2

end Reference

/-- Two ticks of one minute, one of another symbol, and one after a gap of several minutes. -/
def gapCalls : List (CandleCall ℕ) :=
  [⟨.m1, ⟨"AAPL", 10, 0⟩⟩, ⟨.m1, ⟨"TSLA", 7, 30⟩⟩, ⟨.m1, ⟨"AAPL", 12, 59⟩⟩,
    ⟨.m1, ⟨"AAPL", 9, 200⟩⟩]

/-- A minute without ticks between two candles. -/
theorem candles_eq_reference_gap :
    let ticks := CandleHeap.ticksOf gapCalls "AAPL" .m1
    let reference := referenceCandles 60 ticks
    (CandleHeap.run gapCalls).getCandles ("AAPL", .m1) = reference.dropLast.rtake 500 ∧
      (CandleHeap.run gapCalls).activeCandle ("AAPL", .m1) = reference.getLast? ∧
      (tickGroups 60 ticks).map (Candle.ofGroup 60) = reference.map some ∧
      (tickGroups 60 ticks).flatten = ticks ∧
      (reference.Pairwise fun a b => a.time < b.time) ∧
      ∀ more, ∀ address ∈ (CandleHeap.run gapCalls).queues ("AAPL", .m1),
        (CandleHeap.run (gapCalls ++ more)).objects[address]? =
          (CandleHeap.run gapCalls).objects[address]? :=
  candles_eq_reference gapCalls "AAPL" .m1 (by decide)

example : (CandleHeap.run gapCalls).getCandles ("AAPL", .m1) = [⟨0, 10, 12, 10, 12⟩] ∧
    (CandleHeap.run gapCalls).activeCandle ("AAPL", .m1) = some ⟨180, 9, 9, 9, 9⟩ := by
  decide

end TradingSimulator
