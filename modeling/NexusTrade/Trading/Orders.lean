import NexusTrade.Lib.Run
import NexusTrade.Trading.Service

/-!
# The order that is placed

What `placeOrder` makes of its argument, and what the engine is sent.

* **`isSymbol_spec`**: a symbol has two halves, which `splitSymbol` finds;
* **`normalizeSymbol_of_isSymbol`**: the engine knows a symbol by the same name;
* **`newOrder_spec`**: the order that is made;
* **`engineOrder_fields`** and **`engineOrder_spec`**: the request that the engine reads.
-/

namespace NexusTrade.Trading

open MatchingEngine (Decimal)

/-! ### Symbols -/

theorem isSymbolChar_ne_dash {c : Char} (h : isSymbolChar c = true) : c ≠ '-' := by
  rintro rfl
  cases h

/-- **The two halves of a symbol.** -/
theorem isSymbol_spec {symbol : String} (h : isSymbol symbol = true) :
    ∃ base quote, symbol.toList = base ++ '-' :: quote ∧ (∀ c ∈ base, isSymbolChar c = true) ∧
      (∀ c ∈ quote, isSymbolChar c = true) ∧ 2 ≤ base.length ∧ 2 ≤ quote.length := by
  unfold isSymbol at h
  have hsplit := List.takeWhile_append_dropWhile (p := isSymbolChar) (l := symbol.toList)
  cases hdrop : symbol.toList.dropWhile isSymbolChar with
  | nil =>
      rw [hdrop] at h
      cases h
  | cons separator quote =>
      rw [hdrop] at h hsplit
      simp only [Bool.and_eq_true, decide_eq_true_eq, List.all_eq_true] at h
      obtain ⟨⟨⟨rfl, hbase, _⟩, hquote, _⟩, hall⟩ := h
      exact ⟨_, quote, hsplit.symm, fun c hc => List.mem_takeWhile_imp hc, hall, hbase, hquote⟩

theorem splitSymbol_eq {symbol : String} {base quote : List Char}
    (h : symbol.toList = base ++ '-' :: quote) (hbase : ∀ c ∈ base, isSymbolChar c = true)
    (hquote : ∀ c ∈ quote, isSymbolChar c = true) :
    splitSymbol symbol = (String.ofList base, String.ofList quote) := by
  have hb : ∀ c ∈ base, decide (c ≠ '-') = true :=
    fun c hc => decide_eq_true (isSymbolChar_ne_dash (hbase c hc))
  have hq : ∀ c ∈ quote, decide (c ≠ '-') = true :=
    fun c hc => decide_eq_true (isSymbolChar_ne_dash (hquote c hc))
  have htake : (base ++ '-' :: quote).takeWhile (fun c => decide (c ≠ '-')) = base := by
    rw [List.takeWhile_append_of_pos hb, List.takeWhile_cons_of_neg (by decide), List.append_nil]
  have hdrop : (base ++ '-' :: quote).dropWhile (fun c => decide (c ≠ '-')) = '-' :: quote := by
    rw [List.dropWhile_append_of_pos hb, List.dropWhile_cons_of_neg (by decide)]
  rw [splitSymbol, h, htake, hdrop, List.drop_one, List.tail_cons, List.takeWhile_eq_self_iff.mpr hq]

/-- A symbol names a quote asset. -/
theorem quoteAsset_ne_empty {symbol : String} (h : isSymbol symbol = true) :
    (splitSymbol symbol).2 ≠ "" := by
  obtain ⟨base, quote, hsymbol, hbase, hquote, _, hlength⟩ := isSymbol_spec h
  rw [splitSymbol_eq hsymbol hbase hquote]
  intro hempty
  have hempty : String.ofList quote = "" := hempty
  have hnil : quote = [] := by
    rw [show quote = (String.ofList quote).toList from String.toList_ofList.symm, hempty]
    rfl
  rw [hnil] at hlength
  cases hlength

/-- Nothing is trimmed where there is no space. -/
theorem trim_eq_self {cs : List Char} (h : ∀ c ∈ cs, MatchingEngine.isWhitespace c = false) :
    MatchingEngine.trim cs = cs := by
  have hfront : cs.dropWhile MatchingEngine.isWhitespace = cs := by
    rw [List.dropWhile_eq_self_iff]
    intro hlength hspace
    rw [h _ (List.getElem_mem hlength)] at hspace
    cases hspace
  rw [MatchingEngine.trim, hfront, List.rdropWhile_eq_self_iff]
  intro hne hspace
  rw [h _ (List.getLast_mem hne)] at hspace
  cases hspace

/-- **A symbol that the service accepts is normalized.** -/
theorem normalizeSymbol_of_isSymbol {symbol : String} (h : isSymbol symbol = true) :
    MatchingEngine.normalizeSymbol symbol = symbol := by
  obtain ⟨base, quote, hsymbol, hbase, hquote, _, _⟩ := isSymbol_spec h
  have hchar : ∀ c ∈ symbol.toList, isSymbolChar c = true ∨ c = '-' := by
    intro c hc
    rw [hsymbol] at hc
    rcases List.mem_append.mp hc with hc | hc
    · exact Or.inl (hbase c hc)
    · rcases List.mem_cons.mp hc with rfl | hc
      · exact Or.inr rfl
      · exact Or.inl (hquote c hc)
  have hplain : ∀ c ∈ symbol.toList, MatchingEngine.isWhitespace c = false ∧
      MatchingEngine.toAsciiUppercase c = c := by
    intro c hc
    rcases hchar c hc with hc | rfl
    · have hrange : (65 ≤ c.toNat ∧ c.toNat ≤ 90) ∨ (48 ≤ c.toNat ∧ c.toNat ≤ 57) := by
        simpa [isSymbolChar] using hc
      refine ⟨?_, ?_⟩
      · rw [MatchingEngine.isWhitespace]
        simp only [Bool.or_eq_false_iff, Bool.and_eq_false_iff, decide_eq_false_iff_not]
        omega
      · rw [MatchingEngine.toAsciiUppercase, if_neg (by omega)]
    · decide
  rw [MatchingEngine.normalizeSymbol, trim_eq_self fun c hc => (hplain c hc).1,
    List.map_congr_left fun c hc => (hplain c hc).2, List.map_id', String.ofList_toList]

/-! ### The order that is placed -/

/-- What `placeOrder` makes of its argument. -/
structure NewOrder (uuid : String) (order : StoredOrder) : Prop where
  id : order.id = uuid
  symbol : isSymbol order.symbol = true
  lockedAsset : order.lockedAsset =
    if order.side = .buy then (splitSymbol order.symbol).2 else (splitSymbol order.symbol).1
  unfilled : order.filledQuantity = 0
  status : order.status = .new

theorem newOrder_spec {uuid : String} {dto : PlaceOrderDto} {order : StoredOrder}
    (h : newOrder uuid dto = .ok order) : NewOrder uuid order := by
  obtain ⟨symbol, hsymbol, h⟩ := bind_eq_ok.mp h
  obtain ⟨price, _, h⟩ := bind_eq_ok.mp h
  obtain ⟨quantity, _, h⟩ := bind_eq_ok.mp h
  obtain ⟨stopPrice, _, h⟩ := bind_eq_ok.mp h
  cases h
  refine ⟨rfl, ?_, rfl, rfl, rfl⟩
  rw [requireSymbol] at hsymbol
  split at hsymbol
  · rename_i his
    cases hsymbol
    exact his
  · cases hsymbol

/-- What the engine reads of an order, whatever it makes of the numbers. -/
theorem engineOrder_fields {parse : DecimalParser} {order : StoredOrder}
    {request : MatchingEngine.Order} (h : engineOrder parse order = some request) :
    ∃ price stopPrice quantity, parseOptional parse order.price = some price ∧
      parseOptional parse order.stopPrice = some stopPrice ∧ parse order.quantity = some quantity ∧
      request = MatchingEngine.Order.new order.id order.userId order.side order.type price stopPrice
        quantity := by
  obtain ⟨price, hprice, hrest⟩ := Option.bind_eq_some_iff.mp h
  obtain ⟨stopPrice, hstop, hrest⟩ := Option.bind_eq_some_iff.mp hrest
  obtain ⟨quantity, hquantity, hrest⟩ := Option.bind_eq_some_iff.mp hrest
  exact ⟨price, stopPrice, quantity, hprice, hstop, hquantity, (Option.some.inj hrest).symm⟩

/-- Every number that `rust_decimal` reads it reads as it is. -/
def DecimalParser.Exact (parse : DecimalParser) : Prop := ∀ q q', parse q = some q' → q' = q

/-- **The request is the order.** -/
structure Requested (order : StoredOrder) (request : MatchingEngine.Order) : Prop where
  orderId : request.orderId = order.id
  userId : request.userId = order.userId
  side : request.side = order.side
  kind : request.kind = order.type
  price : request.price = order.price
  stopPrice : request.stopPrice = order.stopPrice
  quantity : request.originalQuantity = order.quantity
  built : request.Built

theorem parseOptional_exact {parse : DecimalParser} (h : parse.Exact) {q q' : Option Decimal}
    (hparse : parseOptional parse q = some q') : q' = q := by
  cases q with
  | none =>
      cases hparse
      rfl
  | some q =>
      obtain ⟨p, hp, rfl⟩ := Option.map_eq_some_iff.mp hparse
      rw [h q p hp]

theorem engineOrder_spec {parse : DecimalParser} (h : parse.Exact) {order : StoredOrder}
    {request : MatchingEngine.Order} (hrequest : engineOrder parse order = some request) :
    Requested order request := by
  obtain ⟨price, stopPrice, quantity, hprice, hstop, hquantity, rfl⟩ := engineOrder_fields hrequest
  exact ⟨rfl, rfl, rfl, rfl, parseOptional_exact h hprice, parseOptional_exact h hstop,
    h _ _ hquantity, rfl, rfl⟩

end NexusTrade.Trading
