import TradingSimulator.Library.ExtSeries
import TradingSimulator.Library.Runs
import Mathlib.Algebra.Order.Field.Rat

/-!
# The market buffer

`useMarket` (`hooks/useMarket.js`) merges the packets of the socket into one item for each symbol. A
price that moves by more than 35% from the buffered one is replaced by it. The buffered price is the
only one that the guard knows, so a level that is once accepted is never left by a larger move,
however often the new price is repeated (`mergeUpdates_spec`).
-/

namespace TradingSimulator.MarketBuffer

/-- The values that a field of an item can have. An object counts as the text it converts to. -/
inductive JsValue (K : Type) where
  | undefined
  | null
  | bool (b : Bool)
  | number (x : ExtNum K)
  | text (s : String)
  | object (rendered : String)

/-- An item of a packet or of the buffer: its symbol, empty where it has none, and its own fields
apart from it. -/
structure Item (K : Type) where
  symbol : String
  price : Option (JsValue K)
  fields : String → Option (JsValue K)

/-- A packet of the socket: the items as an array, or in the field `data`, or neither. The items may
be `null`. -/
inductive Payload (K : Type) where
  | array (items : List (Option (Item K)))
  | data (items : List (Option (Item K)))
  | other

/-- `bufferRef.current`. -/
abbrev Buffer (K : Type) := String → Option (Item K)

section Definitions

variable {K : Type} [Field K] [LinearOrder K]

/-- `MAX_ALLOWED_TICK_MOVE`. -/
def MAX_ALLOWED_TICK_MOVE : K := ((35 : ℕ) : K) / ((100 : ℕ) : K)

/-- `Number(value)`, with the number that a text is parsed as. -/
def toNumber (parse : String → ExtNum K) : JsValue K → ExtNum K
  | .undefined => .nan
  | .null => .fin 0
  | .bool b => .fin (if b then 1 else 0)
  | .number x => x
  | .text s => parse s
  | .object rendered => parse rendered

/-- `Number(item.price)`. -/
def Item.numberPrice (parse : String → ExtNum K) (item : Item K) : ExtNum K :=
  toNumber parse (item.price.getD .undefined)

/-- The object `{}`. -/
def Item.empty : Item K := { symbol := "", price := none, fields := fun _ => none }

/-- `{ ...prev, ...item }`. -/
def Item.merge (prev item : Item K) : Item K where
  symbol := item.symbol
  price := item.price.or prev.price
  fields := fun field => (item.fields field).or (prev.fields field)

/-- The item with the price that the guard lets through. -/
def guardItem (parse : String → ExtNum K) (prev item : Item K) : Item K :=
  let nextPrice := item.numberPrice parse
  let prevPrice := prev.numberPrice parse
  if nextPrice.isFinite ∧ .fin 0 < nextPrice ∧ prevPrice.isFinite ∧ .fin 0 < prevPrice then
    -- both prices are valid: the jump guard decides
    let move := (nextPrice - prevPrice).abs / prevPrice
    if .fin MAX_ALLOWED_TICK_MOVE < move then { item with price := some (.number prevPrice) }
    else item
  else if ¬ nextPrice.isFinite ∨ nextPrice ≤ .fin 0 then
    -- an invalid price is replaced by the old one, or by `undefined`
    { item with
      price := some (if prevPrice.isFinite then .number prevPrice else .undefined) }
  -- the first valid price
  else item

/-- One item of a packet. -/
def mergeItem (parse : String → ExtNum K) (buffer : Buffer K) : Option (Item K) → Buffer K
  | none => buffer
  | some item =>
    if item.symbol = "" then buffer
    else
      let prev := (buffer item.symbol).getD Item.empty
      Function.update buffer item.symbol (some (prev.merge (guardItem parse prev item)))

def Payload.updates : Payload K → List (Option (Item K))
  | .array items => items
  | .data items => items
  | .other => []

/-- `mergeUpdates`. -/
def mergeUpdates (parse : String → ExtNum K) (buffer : Buffer K) (payload : Payload K) : Buffer K :=
  payload.updates.foldl (mergeItem parse) buffer

/-- The buffer behind some packets. -/
def afterPackets (parse : String → ExtNum K) (packets : List (Payload K)) : Buffer K :=
  packets.foldl (mergeUpdates parse) fun _ => none

end Definitions

/-! ### The guard -/

section Guard

variable {K : Type} [Field K] [LinearOrder K]

/-- A finite positive number. -/
def quote : ExtNum K → Option K
  | .fin q => if 0 < q then some q else none
  | _ => none

/-- The move from the held price to `p` is small enough, or there is no held price. -/
def Accepts (held : Option K) (p : K) : Prop := ∀ q ∈ held, |p - q| / q ≤ MAX_ALLOWED_TICK_MOVE

instance (held : Option K) (p : K) : Decidable (Accepts held p) :=
  inferInstanceAs (Decidable (∀ q ∈ held, |p - q| / q ≤ MAX_ALLOWED_TICK_MOVE))

/-- The guard on prices alone: the held price after a tick, `none` for one that is no price. -/
def guardStep (held : Option K) : Option K → Option K
  | none => held
  | some p => if Accepts held p then some p else held

variable [IsStrictOrderedRing K]

/-- A price that is once held stays under its own repetition. -/
theorem accepts_self (p : K) : Accepts (some p) p := by
  intro q hq
  obtain rfl := Option.mem_some_iff.mp hq
  rw [sub_self, abs_zero, zero_div, MAX_ALLOWED_TICK_MOVE]
  exact div_nonneg (Nat.cast_nonneg _) (Nat.cast_nonneg _)

/-- The repetition of a price has the effect of the first time. -/
theorem foldl_guardStep (held : Option K) {p : K} {ticks : List (Option K)} (hne : ticks ≠ [])
    (hticks : ∀ tick ∈ ticks, tick = some p) :
    ticks.foldl guardStep held = if Accepts held p then some p else held := by
  have hstay : guardStep (if Accepts held p then some p else held) (some p) =
      if Accepts held p then some p else held := by
    by_cases haccepts : Accepts held p
    · rw [if_pos haccepts, guardStep, if_pos (accepts_self p)]
    · rw [if_neg haccepts, guardStep, if_neg haccepts]
  -- the first tick decides, and the others find its decision settled
  obtain ⟨tick, rest, rfl⟩ := List.exists_cons_of_ne_nil hne
  rw [List.forall_mem_cons] at hticks
  rw [List.foldl_cons, hticks.1]
  apply Runs.foldl_invariant (A := fun tick => tick = some p)
    (J := fun after => after = if Accepts held p then some p else held) _ rfl hticks.2
  rintro after _ rfl rfl
  exact hstay

end Guard

/-! ### Merging one item -/

section Merging

variable {K : Type} [Field K] [LinearOrder K] {parse : String → ExtNum K}

/-- The price of an item is absent or a finite positive number. -/
def IsPriced (parse : String → ExtNum K) (item : Item K) : Prop :=
  item.price.getD .undefined = .undefined ∨ ∃ q, 0 < q ∧ item.numberPrice parse = .fin q

omit [LinearOrder K] in
/-- An absent price is no number. -/
theorem numberPrice_of_absent {item : Item K} (h : item.price.getD .undefined = .undefined) :
    item.numberPrice parse = .nan := by
  rw [Item.numberPrice, h, toNumber]

omit [LinearOrder K] in
theorem numberPrice_merge (prev : Item K) {item : Item K} (h : item.price.isSome) :
    (prev.merge item).numberPrice parse = item.numberPrice parse := by
  obtain ⟨price, hprice⟩ := Option.isSome_iff_exists.mp h
  rw [Item.numberPrice, Item.numberPrice, Item.merge, hprice, Option.some_or]

omit [Field K] [LinearOrder K] in
theorem price_merge (prev : Item K) {item : Item K} (h : item.price.isSome) :
    (prev.merge item).price = item.price := by
  obtain ⟨price, hprice⟩ := Option.isSome_iff_exists.mp h
  rw [Item.merge, hprice, Option.some_or]

omit [LinearOrder K] in
/-- A price that is a number has been sent. -/
theorem isSome_price_of_finite {item : Item K} {p : K} (h : item.numberPrice parse = .fin p) :
    item.price.isSome := by
  cases hprice : item.price with
  | none =>
    rw [Item.numberPrice, hprice] at h
    exact absurd h (by simp [toNumber])
  | some price => rfl

/-- What is not finite, or not positive, is no quote. -/
theorem quote_eq_none {x : ExtNum K} (h : ¬ x.isFinite ∨ x ≤ .fin 0) : quote x = none := by
  cases x with
  | fin q =>
    rcases h with h | h
    · exact absurd rfl h
    · exact if_neg (not_lt.mpr ((ExtNum.fin_le_fin q 0).mp h))
  | inf s => rfl
  | nan => rfl

/-- A price that is not finite and positive is replaced by the buffered one, if there is one. -/
theorem guardItem_invalid (prev : Item K) {item : Item K}
    (h : ¬ (item.numberPrice parse).isFinite ∨ item.numberPrice parse ≤ .fin 0) :
    guardItem parse prev item =
      { item with price := some (if (prev.numberPrice parse).isFinite then
          .number (prev.numberPrice parse) else .undefined) } := by
  -- the jump guard is not reached
  have hfirst : ¬ ((item.numberPrice parse).isFinite ∧ .fin 0 < item.numberPrice parse ∧
      (prev.numberPrice parse).isFinite ∧ .fin 0 < prev.numberPrice parse) := by
    rintro ⟨hfinite, hpos, -, -⟩
    obtain ⟨p, hp⟩ := ExtNum.isFinite_iff.mp hfinite
    rw [hp, ExtNum.fin_lt_fin] at hpos
    rw [hp, ExtNum.fin_le_fin] at h
    rcases h with h | h
    · exact h rfl
    · exact absurd hpos (not_lt.mpr h)
  rw [guardItem, if_neg hfirst, if_pos h]

/-- The first price is let through. -/
theorem guardItem_first {prev item : Item K} {p : K} (hp : 0 < p)
    (hnext : item.numberPrice parse = .fin p) (hprev : prev.numberPrice parse = .nan) :
    guardItem parse prev item = item := by
  have hvalid : ¬ (¬ (ExtNum.fin p).isFinite ∨ ExtNum.fin p ≤ .fin 0) := by
    rw [ExtNum.fin_le_fin]
    rintro (h | h)
    · exact h rfl
    · exact absurd hp (not_lt.mpr h)
  simp only [guardItem, hnext, hprev]
  rw [if_neg (fun h => absurd h.2.2.1 Bool.false_ne_true), if_neg hvalid]

/-- A later price is let through unless it moves too far. -/
theorem guardItem_later {prev item : Item K} {p q : K} (hp : 0 < p) (hq : 0 < q)
    (hnext : item.numberPrice parse = .fin p) (hprev : prev.numberPrice parse = .fin q) :
    guardItem parse prev item =
      if Accepts (some q) p then item else { item with price := some (.number (.fin q)) } := by
  have hmove : (ExtNum.fin p - ExtNum.fin q).abs / ExtNum.fin q = .fin (|p - q| / q) := by
    rw [ExtNum.fin_sub_fin]
    exact ExtNum.fin_div_fin _ hq.ne'
  have hvalid : (ExtNum.fin p).isFinite = true ∧ ExtNum.fin 0 < ExtNum.fin p ∧
      (ExtNum.fin q).isFinite = true ∧ ExtNum.fin 0 < ExtNum.fin q :=
    ⟨rfl, (ExtNum.fin_lt_fin 0 p).mpr hp, rfl, (ExtNum.fin_lt_fin 0 q).mpr hq⟩
  have haccepts : Accepts (some q) p ↔ ¬ MAX_ALLOWED_TICK_MOVE < |p - q| / q := by
    rw [Accepts, not_lt]
    exact ⟨fun h => h q rfl, fun h r hr => (Option.mem_some_iff.mp hr) ▸ h⟩
  simp only [guardItem, hnext, hprev]
  rw [if_pos hvalid, hmove]
  -- the source asks for a move above the limit, `Accepts` for one up to it
  by_cases hlt : MAX_ALLOWED_TICK_MOVE < |p - q| / q
  · rw [if_pos ((ExtNum.fin_lt_fin _ _).mpr hlt), if_neg (fun h => haccepts.mp h hlt)]
  · rw [if_neg (fun h => hlt ((ExtNum.fin_lt_fin _ _).mp h)), if_pos (haccepts.mpr hlt)]

/-- The guard lets no price through that is not finite and positive, and acts on it as on a price
alone. -/
theorem guardItem_spec {prev : Item K} (hprev : IsPriced parse prev) (item : Item K) :
    (guardItem parse prev item).price.isSome ∧ IsPriced parse (guardItem parse prev item) ∧
      quote ((guardItem parse prev item).numberPrice parse) =
        guardStep (quote (prev.numberPrice parse)) (quote (item.numberPrice parse)) := by
  -- no valid price, the first one, or a later one
  by_cases hinvalid : ¬ (item.numberPrice parse).isFinite ∨ item.numberPrice parse ≤ .fin 0
  · rw [guardItem_invalid prev hinvalid, quote_eq_none hinvalid, guardStep]
    refine ⟨rfl, ?_⟩
    rcases hprev with habsent | ⟨q, hq, hprice⟩
    · have hnan : prev.numberPrice parse = .nan := numberPrice_of_absent habsent
      rw [hnan]
      exact ⟨Or.inl rfl, rfl⟩
    · rw [hprice]
      exact ⟨Or.inr ⟨q, hq, rfl⟩, rfl⟩
  · obtain ⟨p, hp, hnext⟩ : ∃ p, 0 < p ∧ item.numberPrice parse = .fin p := by
      rw [not_or, not_not] at hinvalid
      obtain ⟨p, hp⟩ := ExtNum.isFinite_iff.mp hinvalid.1
      rw [hp, ExtNum.fin_le_fin, not_le] at hinvalid
      exact ⟨p, hinvalid.2, hp⟩
    have hsent := isSome_price_of_finite hnext
    have htick : quote (ExtNum.fin p) = some p := if_pos hp
    rcases hprev with habsent | ⟨q, hq, hprice⟩
    · have hnan : prev.numberPrice parse = .nan := numberPrice_of_absent habsent
      rw [guardItem_first hp hnext hnan, hnan, hnext, htick]
      refine ⟨hsent, Or.inr ⟨p, hp, hnext⟩, ?_⟩
      have haccepts : Accepts none p := fun q hq => absurd hq (Option.not_mem_none q)
      show some p = if Accepts none p then some p else none
      rw [if_pos haccepts]
    · have hheld : quote (ExtNum.fin q) = some q := if_pos hq
      rw [guardItem_later hp hq hnext hprice, hprice, hnext, htick, hheld, guardStep]
      split_ifs with haccepts
      · exact ⟨hsent, Or.inr ⟨p, hp, hnext⟩, by rw [hnext, htick]⟩
      · exact ⟨rfl, Or.inr ⟨q, hq, rfl⟩, hheld⟩

end Merging

/-! ### Runs -/

section Runs

variable {K : Type} [Field K] [LinearOrder K] {parse : String → ExtNum K} {buffer : Buffer K}
  {symbol : String}

/-- The buffered price of a symbol. -/
def bufferedPrice (parse : String → ExtNum K) (buffer : Buffer K) (symbol : String) : Option K :=
  (buffer symbol).bind fun item => quote (item.numberPrice parse)

/-- The buffered value of a field of a symbol. -/
def bufferedField (buffer : Buffer K) (symbol field : String) : Option (JsValue K) :=
  (buffer symbol).bind fun item => item.fields field

/-- The entry, if it is an item for the symbol. -/
def itemFor (symbol : String) (entry : Option (Item K)) : Option (Item K) :=
  entry.filter fun item => item.symbol = symbol

/-- The items for a symbol in some packets. -/
def itemsFor (symbol : String) (packets : List (Payload K)) : List (Item K) :=
  (packets.flatMap Payload.updates).filterMap (itemFor symbol)

/-- A packet that carries the price `p` for the symbol. -/
def Payload.Carries (payload : Payload K) (symbol : String) (p : K) : Prop :=
  itemsFor symbol [payload] ≠ [] ∧
    ∀ item ∈ itemsFor symbol [payload], item.price = some (.number (.fin p))

/-- All buffered prices are absent or finite positive numbers. -/
def AllPriced (parse : String → ExtNum K) (buffer : Buffer K) : Prop :=
  ∀ symbol item, buffer symbol = some item → IsPriced parse item

omit [Field K] [LinearOrder K] in
/-- An entry is an item for the symbol, or it is not for it. -/
theorem itemFor_cases (symbol : String) (entry : Option (Item K)) :
    (∃ item, entry = some item ∧ item.symbol = symbol ∧ itemFor symbol entry = some item) ∨
      (itemFor symbol entry = none ∧ ∀ item ∈ entry, item.symbol ≠ symbol) := by
  cases entry with
  | none => exact Or.inr ⟨rfl, fun item hitem => absurd hitem (Option.not_mem_none item)⟩
  | some item =>
    by_cases hsymbol : item.symbol = symbol
    · exact Or.inl ⟨item, rfl, hsymbol, by simp [itemFor, Option.filter, hsymbol]⟩
    · refine Or.inr ⟨by simp [itemFor, Option.filter, hsymbol], fun other hother => ?_⟩
      exact (Option.mem_some_iff.mp hother) ▸ hsymbol

/-- An item is merged into the entry of its symbol. -/
theorem mergeItem_self {item : Item K} (hsymbol : item.symbol ≠ "") :
    mergeItem parse buffer (some item) item.symbol =
      some (((buffer item.symbol).getD Item.empty).merge
        (guardItem parse ((buffer item.symbol).getD Item.empty) item)) := by
  simp only [mergeItem]
  rw [if_neg hsymbol, Function.update_self]

/-- An entry for another symbol changes nothing. -/
theorem mergeItem_other {entry : Option (Item K)} (h : ∀ item ∈ entry, item.symbol ≠ symbol) :
    mergeItem parse buffer entry symbol = buffer symbol := by
  cases entry with
  | none => rfl
  | some item =>
    simp only [mergeItem]
    split_ifs
    · rfl
    · exact Function.update_of_ne (h item rfl).symm _ _

theorem fields_guardItem (prev item : Item K) :
    (guardItem parse prev item).fields = item.fields := by
  simp only [guardItem]
  split_ifs <;> rfl

/-- An item overwrites the fields that it carries. -/
theorem bufferedField_mergeItem (hsymbol : symbol ≠ "") (entry : Option (Item K))
    (field : String) :
    bufferedField (mergeItem parse buffer entry) symbol field =
      match itemFor symbol entry with
      | none => bufferedField buffer symbol field
      | some item => (item.fields field).or (bufferedField buffer symbol field) := by
  obtain ⟨item, rfl, rfl, hitem⟩ | ⟨hitem, hother⟩ := itemFor_cases symbol entry
  · rw [hitem, bufferedField, mergeItem_self hsymbol, Option.bind_some]
    simp only [Item.merge, fields_guardItem, bufferedField]
    cases buffer item.symbol <;> rfl
  · rw [hitem, bufferedField, mergeItem_other hother, bufferedField]

/-- The buffered value of a field is the last one that was received for it. -/
theorem bufferedField_foldl (hsymbol : symbol ≠ "") (entries : List (Option (Item K)))
    (field : String) :
    bufferedField (entries.foldl (mergeItem parse) buffer) symbol field =
      ((entries.filterMap (itemFor symbol)).filterMap fun item => item.fields field).getLast?.or
        (bufferedField buffer symbol field) := by
  induction entries generalizing buffer with
  | nil => rfl
  | cons entry entries ih =>
    rw [List.foldl_cons, ih, bufferedField_mergeItem hsymbol, List.filterMap_cons]
    cases itemFor symbol entry with
    | none => rfl
    | some item =>
      -- a field that the item does not carry keeps what was received before
      dsimp only
      rw [List.filterMap_cons]
      cases item.fields field with
      | none => rfl
      | some value =>
        rw [List.getLast?_cons, Option.some_or]
        cases List.getLast? _ <;> rfl

/-- The entry of a symbol is priced, and so is the empty one where there is none. -/
theorem isPriced_prev (hbuffer : AllPriced parse buffer) (symbol : String) :
    IsPriced parse ((buffer symbol).getD Item.empty) := by
  cases hprev : buffer symbol with
  | none => exact Or.inl rfl
  | some prev => exact hbuffer symbol prev hprev

/-- What is merged has the price that the guard lets through. -/
theorem merge_guardItem {prev : Item K} (hprev : IsPriced parse prev) (item : Item K) :
    IsPriced parse (prev.merge (guardItem parse prev item)) ∧
      quote ((prev.merge (guardItem parse prev item)).numberPrice parse) =
        guardStep (quote (prev.numberPrice parse)) (quote (item.numberPrice parse)) := by
  obtain ⟨hsent, hpriced, hquote⟩ := guardItem_spec hprev item
  rw [IsPriced, price_merge prev hsent, numberPrice_merge prev hsent]
  exact ⟨hpriced, hquote⟩

/-- An item, whatever its price is, leaves every buffered price absent or positive. -/
theorem allPriced_mergeItem (hbuffer : AllPriced parse buffer) (entry : Option (Item K)) :
    AllPriced parse (mergeItem parse buffer entry) := by
  intro symbol stored hstored
  cases entry with
  | none => exact hbuffer symbol stored hstored
  | some item =>
    simp only [mergeItem] at hstored
    split_ifs at hstored with hsymbol
    · exact hbuffer symbol stored hstored
    -- only the entry of the item's own symbol is written
    · by_cases hsame : symbol = item.symbol
      · subst hsame
        rw [Function.update_self, Option.some_inj] at hstored
        exact hstored ▸ (merge_guardItem (isPriced_prev hbuffer _) item).1
      · rw [Function.update_of_ne hsame] at hstored
        exact hbuffer symbol stored hstored

/-- The buffered price takes the steps of the guard. -/
theorem bufferedPrice_mergeItem (hbuffer : AllPriced parse buffer) (hsymbol : symbol ≠ "")
    (entry : Option (Item K)) :
    bufferedPrice parse (mergeItem parse buffer entry) symbol =
      match itemFor symbol entry with
      | none => bufferedPrice parse buffer symbol
      | some item =>
        guardStep (bufferedPrice parse buffer symbol) (quote (item.numberPrice parse)) := by
  obtain ⟨item, rfl, rfl, hitem⟩ | ⟨hitem, hother⟩ := itemFor_cases symbol entry
  · rw [hitem, bufferedPrice, mergeItem_self hsymbol, Option.bind_some,
      (merge_guardItem (isPriced_prev hbuffer _) item).2, bufferedPrice]
    cases buffer item.symbol <;> rfl
  · rw [hitem, bufferedPrice, mergeItem_other hother, bufferedPrice]

/-- A run of the buffer is one of the guard, on the prices for the symbol. -/
theorem bufferedPrice_foldl (hbuffer : AllPriced parse buffer) (hsymbol : symbol ≠ "")
    (entries : List (Option (Item K))) :
    bufferedPrice parse (entries.foldl (mergeItem parse) buffer) symbol =
      ((entries.filterMap (itemFor symbol)).map fun item =>
        quote (item.numberPrice parse)).foldl guardStep (bufferedPrice parse buffer symbol) := by
  induction entries generalizing buffer with
  | nil => rfl
  | cons entry entries ih =>
    rw [List.foldl_cons, ih (allPriced_mergeItem hbuffer entry),
      bufferedPrice_mergeItem hbuffer hsymbol, List.filterMap_cons]
    cases itemFor symbol entry with
    | none => rfl
    | some item => rfl

/-- Packets are merged entry by entry. -/
theorem foldl_mergeUpdates (packets : List (Payload K)) (buffer : Buffer K) :
    packets.foldl (mergeUpdates parse) buffer =
      (packets.flatMap Payload.updates).foldl (mergeItem parse) buffer := by
  rw [List.foldl_flatMap]
  rfl

/-- Whatever has come in, every price in the buffer is one. -/
theorem allPriced_afterPackets (packets : List (Payload K)) :
    AllPriced parse (afterPackets parse packets) := by
  rw [afterPackets, foldl_mergeUpdates]
  apply Runs.foldl_invariant (A := fun _ => True) (J := AllPriced parse)
  · exact fun buffer entry _ hbuffer => allPriced_mergeItem hbuffer entry
  · exact fun symbol item hitem => absurd hitem (Option.some_ne_none item).symm
  · exact fun _ _ => trivial

omit [Field K] [LinearOrder K] in
/-- An item for a symbol comes from one of the packets. -/
theorem mem_itemsFor {packets : List (Payload K)} {item : Item K} :
    item ∈ itemsFor symbol packets ↔ ∃ payload ∈ packets, item ∈ itemsFor symbol [payload] := by
  simp only [itemsFor, List.mem_filterMap, List.mem_flatMap, List.mem_singleton]
  constructor
  · rintro ⟨entry, ⟨payload, hpayload, hentry⟩, hitem⟩
    exact ⟨payload, hpayload, entry, ⟨payload, rfl, hentry⟩, hitem⟩
  · rintro ⟨payload, hpayload, entry, ⟨_, rfl, hentry⟩, hitem⟩
    exact ⟨entry, ⟨_, hpayload, hentry⟩, hitem⟩

/-- The ticks of packets that carry one price are that price. -/
theorem ticks_of_carries (parse : String → ExtNum K) {p : K} (hp : 0 < p)
    {repeated : List (Payload K)} (hne : repeated ≠ [])
    (hcarries : ∀ payload ∈ repeated, payload.Carries symbol p) :
    ((itemsFor symbol repeated).map fun item => quote (item.numberPrice parse)) ≠ [] ∧
      ∀ tick ∈ (itemsFor symbol repeated).map fun item => quote (item.numberPrice parse),
        tick = some p := by
  constructor
  · obtain ⟨payload, hpayload⟩ := List.exists_mem_of_ne_nil _ hne
    obtain ⟨item, hitem⟩ := List.exists_mem_of_ne_nil _ (hcarries payload hpayload).1
    rw [ne_eq, List.map_eq_nil_iff]
    exact List.ne_nil_of_mem (mem_itemsFor.mpr ⟨payload, hpayload, hitem⟩)
  · rw [List.forall_mem_map]
    intro item hitem
    obtain ⟨payload, hpayload, hitem⟩ := mem_itemsFor.mp hitem
    rw [Item.numberPrice, (hcarries payload hpayload).2 item hitem]
    exact if_pos hp

variable [IsStrictOrderedRing K]

/-- Packets that all carry one price set it if it is close enough to the buffered one, and otherwise
never do. -/
theorem bufferedPrice_of_carries (packets : List (Payload K)) (hsymbol : symbol ≠ "") {p : K}
    (hp : 0 < p) {repeated : List (Payload K)} (hne : repeated ≠ [])
    (hcarries : ∀ payload ∈ repeated, payload.Carries symbol p) :
    bufferedPrice parse (afterPackets parse (packets ++ repeated)) symbol =
      if Accepts (bufferedPrice parse (afterPackets parse packets) symbol) p then some p
      else bufferedPrice parse (afterPackets parse packets) symbol := by
  obtain ⟨hticks, hall⟩ := ticks_of_carries parse hp hne hcarries
  calc bufferedPrice parse (afterPackets parse (packets ++ repeated)) symbol
      = bufferedPrice parse ((repeated.flatMap Payload.updates).foldl (mergeItem parse)
          (afterPackets parse packets)) symbol := by
        rw [← foldl_mergeUpdates, afterPackets, List.foldl_append, ← afterPackets]
    _ = ((itemsFor symbol repeated).map fun item => quote (item.numberPrice parse)).foldl guardStep
          (bufferedPrice parse (afterPackets parse packets) symbol) :=
        bufferedPrice_foldl (allPriced_afterPackets packets) hsymbol _
    _ = _ := foldl_guardStep _ hticks hall

/-- Every buffered price is absent or a finite positive number, and of every field the last value
that was received is kept. Packets that all carry one price set it if it is close enough to the
buffered one, and otherwise never do. -/
theorem mergeUpdates_spec (parse : String → ExtNum K) (packets : List (Payload K))
    (hsymbol : symbol ≠ "") :
    (∀ item, afterPackets parse packets symbol = some item → IsPriced parse item) ∧
      (∀ field, bufferedField (afterPackets parse packets) symbol field =
        ((itemsFor symbol packets).filterMap fun item => item.fields field).getLast?) ∧
      ∀ (p : K) (repeated : List (Payload K)), 0 < p → repeated ≠ [] →
        (∀ payload ∈ repeated, payload.Carries symbol p) →
        bufferedPrice parse (afterPackets parse (packets ++ repeated)) symbol =
          if Accepts (bufferedPrice parse (afterPackets parse packets) symbol) p then some p
          else bufferedPrice parse (afterPackets parse packets) symbol := by
  refine ⟨allPriced_afterPackets packets symbol, fun field => ?_, ?_⟩
  · rw [afterPackets, foldl_mergeUpdates, bufferedField_foldl hsymbol]
    exact Option.or_none
  · exact fun p repeated hp hne hcarries => bufferedPrice_of_carries packets hsymbol hp hne hcarries

end Runs

section Jump

/-- A packet with one price of a share. -/
def tickPacket (p : ℚ) : Payload ℚ :=
  .array [some { symbol := "AAPL", price := some (.number (.fin p)), fields := fun _ => none }]

theorem carries_tickPacket (p : ℚ) : (tickPacket p).Carries "AAPL" p := by
  constructor
  · exact List.cons_ne_nil _ _
  · intro item hitem
    obtain rfl := List.mem_singleton.mp hitem
    rfl

/-- No text is a number. -/
def noNumbers : String → ExtNum ℚ := fun _ => .nan

theorem bufferedPrice_hundred :
    bufferedPrice noNumbers (afterPackets noNumbers [tickPacket 100]) "AAPL" = some 100 := by
  decide +kernel

/-- After one packet with the price 100. -/
theorem mergeUpdates_spec_hundred :
    (∀ item, afterPackets noNumbers [tickPacket 100] "AAPL" = some item →
        IsPriced noNumbers item) ∧
      (∀ field, bufferedField (afterPackets noNumbers [tickPacket 100]) "AAPL" field =
        ((itemsFor "AAPL" [tickPacket 100]).filterMap fun item => item.fields field).getLast?) ∧
      ∀ (p : ℚ) (repeated : List (Payload ℚ)), 0 < p → repeated ≠ [] →
        (∀ payload ∈ repeated, payload.Carries "AAPL" p) →
        bufferedPrice noNumbers (afterPackets noNumbers ([tickPacket 100] ++ repeated)) "AAPL" =
          if Accepts (bufferedPrice noNumbers (afterPackets noNumbers [tickPacket 100]) "AAPL") p
          then some p
          else bufferedPrice noNumbers (afterPackets noNumbers [tickPacket 100]) "AAPL" :=
  mergeUpdates_spec noNumbers [tickPacket 100] (by decide)

/-- A price that has doubled is rejected for ever. -/
theorem not_recovers_doubled :
    ¬ ∀ (packets : List (Payload ℚ)) (symbol : String) (p : ℚ), symbol ≠ "" → 0 < p →
      ∃ N, ∀ repeated : List (Payload ℚ), repeated.length = N →
        (∀ payload ∈ repeated, payload.Carries symbol p) →
        bufferedPrice noNumbers (afterPackets noNumbers (packets ++ repeated)) symbol = some p := by
  intro h
  obtain ⟨N, hN⟩ := h [tickPacket 100] "AAPL" 200 (by decide) (by norm_num)
  have hcarries : ∀ payload ∈ List.replicate N (tickPacket 200), payload.Carries "AAPL" 200 := by
    intro payload hpayload
    rw [List.eq_of_mem_replicate hpayload]
    exact carries_tickPacket 200
  have hrecovers := hN _ List.length_replicate hcarries
  have hrejects : ¬ Accepts (some (100 : ℚ)) 200 := by decide +kernel
  by_cases hnone : List.replicate N (tickPacket 200) = []
  · rw [hnone, List.append_nil, bufferedPrice_hundred] at hrecovers
    exact absurd hrecovers (by decide +kernel)
  · rw [bufferedPrice_of_carries _ (by decide) (by norm_num) hnone hcarries,
      bufferedPrice_hundred, if_neg hrejects] at hrecovers
    exact absurd hrecovers (by decide +kernel)

/-- A packet with one price of a share as a text. -/
def textPacket (price : String) : Payload ℚ :=
  .array [some { symbol := "AAPL", price := some (.text price), fields := fun _ => none }]

/-- The text itself is buffered: it is converted only to be compared. -/
theorem not_number_textPrice :
    ¬ ∀ (parse : String → ExtNum ℚ) (packets : List (Payload ℚ)) (symbol : String)
      (price : JsValue ℚ), (afterPackets parse packets symbol).bind Item.price = some price →
        price = .undefined ∨ ∃ p, 0 < p ∧ price = .number (.fin p) := by
  intro h
  rcases h (fun _ => .fin 100) [textPacket "100"] "AAPL" (.text "100") rfl with
    habsent | ⟨p, -, hnumber⟩
  · exact absurd habsent (by simp)
  · exact absurd hnumber (by simp)

end Jump

end TradingSimulator.MarketBuffer
