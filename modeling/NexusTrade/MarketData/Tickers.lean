import Mathlib.Order.Bounds.Basic
import NexusTrade.Lib.Delivery
import NexusTrade.MarketData.Service

/-!
# Tickers and klines

What the service answers is a summary of the trades that were delivered to it, in whatever order and however often.

* **`tradesOf`**: the trades on a symbol among the events;
* **`Summarizes`**: the ticker of a symbol is that of its trades, and **`after_spec`** says so of every run;
* **`ticker_of_deliveries`**: if each trade is delivered at least once, the ticker has the extremes of the trades, and
  their volume exactly if none was delivered twice;
* **`kline_within_ticker`**: the candle of the last trades is well formed and lies within the ticker.
-/

namespace NexusTrade.MarketData

open MatchingEngine (Decimal)

/-! ### The trades of a symbol -/

/-- The trades on a symbol among some events. -/
def tradesOf (symbol : String) (events : List TopicEvent) : List ExecutedTrade :=
  events.filterMap fun
    | .tradeExecuted trade => if trade.symbol = symbol then some trade else none
    | .other => none

/-- The volume of some trades. -/
def volumeOf (trades : List ExecutedTrade) : Decimal := (trades.map fun trade => trade.quantity).sum

/-- The prices of some trades. -/
def pricesOf (trades : List ExecutedTrade) : Set Decimal := {price | ∃ trade ∈ trades, trade.price = price}

theorem mem_tradesOf {symbol : String} {events : List TopicEvent} {trade : ExecutedTrade} :
    trade ∈ tradesOf symbol events ↔ .tradeExecuted trade ∈ events ∧ trade.symbol = symbol := by
  constructor
  · intro h
    obtain ⟨event, hevent, hfound⟩ := List.mem_filterMap.mp h
    cases event with
    | other => cases hfound
    | tradeExecuted other =>
        by_cases hsymbol : other.symbol = symbol
        · simp only [if_pos hsymbol, Option.some.injEq] at hfound
          subst hfound
          exact ⟨hevent, hsymbol⟩
        · simp only [if_neg hsymbol] at hfound
          cases hfound
  · rintro ⟨hevent, hsymbol⟩
    exact List.mem_filterMap.mpr ⟨_, hevent, if_pos hsymbol⟩

theorem volumeOf_snoc (trades : List ExecutedTrade) (trade : ExecutedTrade) :
    volumeOf (trades ++ [trade]) = volumeOf trades + trade.quantity := by
  simp [volumeOf]

theorem pricesOf_snoc (trades : List ExecutedTrade) (trade : ExecutedTrade) :
    pricesOf (trades ++ [trade]) = insert trade.price (pricesOf trades) := by
  ext price
  simp only [pricesOf, List.mem_append, List.mem_singleton, Set.mem_ofPred_eq, Set.mem_insert_iff]
  constructor
  · rintro ⟨other, hother | rfl, rfl⟩
    · exact .inr ⟨other, hother, rfl⟩
    · exact .inl rfl
  · rintro (rfl | ⟨other, hother, rfl⟩)
    · exact ⟨trade, .inr rfl, rfl⟩
    · exact ⟨other, .inl hother, rfl⟩

/-! ### The ticker -/

/-- **The ticker of some trades**, of which the last one is the last to be delivered. -/
structure Summarizes (symbol : String) (trades : List ExecutedTrade) (ticker : Option Ticker) : Prop where
  absent : ticker = none ↔ trades = []
  symbol : ∀ t ∈ ticker, t.symbol = symbol
  last : ∀ t ∈ ticker, ∃ trade, trades.getLast? = some trade ∧ t.lastPrice = trade.price
  volume : ∀ t ∈ ticker, t.volume = volumeOf trades
  high : ∀ t ∈ ticker, IsGreatest (pricesOf trades) t.high
  low : ∀ t ∈ ticker, IsLeast (pricesOf trades) t.low

theorem Summarizes.snoc {symbol : String} {trades : List ExecutedTrade} {ticker : Option Ticker}
    (h : Summarizes symbol trades ticker) {trade : ExecutedTrade} (hsymbol : trade.symbol = symbol) :
    Summarizes symbol (trades ++ [trade]) (some (MarketDataService.nextTicker ticker trade)) := by
  constructor
  · simp
  · rintro _ ⟨⟩
    exact hsymbol
  · rintro _ ⟨⟩
    exact ⟨trade, List.getLast?_concat, rfl⟩
  · rintro _ ⟨⟩
    rw [volumeOf_snoc]
    cases hticker : ticker with
    | none =>
        rw [h.absent.mp hticker]
        rfl
    | some t => exact congrArg (· + trade.quantity) (h.volume t hticker)
  · rintro _ ⟨⟩
    rw [pricesOf_snoc]
    cases hticker : ticker with
    | none =>
        rw [h.absent.mp hticker]
        simp [MarketDataService.nextTicker, pricesOf, IsGreatest, upperBounds]
    | some t =>
        have hmax := (h.high t hticker).insert trade.price
        simp only [MarketDataService.nextTicker]
        split_ifs with hlt
        · rwa [max_eq_left hlt.le] at hmax
        · rwa [max_eq_right (not_lt.mp hlt)] at hmax
  · rintro _ ⟨⟩
    rw [pricesOf_snoc]
    cases hticker : ticker with
    | none =>
        rw [h.absent.mp hticker]
        simp [MarketDataService.nextTicker, pricesOf, IsLeast, lowerBounds]
    | some t =>
        have hmin := (h.low t hticker).insert trade.price
        simp only [MarketDataService.nextTicker]
        split_ifs with hlt
        · rwa [min_eq_left hlt.le] at hmin
        · rwa [min_eq_right (not_lt.mp hlt)] at hmin

/-! ### Runs -/

open MarketDataService (lastThousand nextTicker)

/-- What is left out of a window stays out. -/
theorem drop_window_snoc {α : Type} (n : ℕ) (l : List α) (a : α) :
    (l.drop (l.length - n) ++ [a]).drop ((l.drop (l.length - n) ++ [a]).length - n)
      = (l ++ [a]).drop ((l ++ [a]).length - n) := by
  have hdrop : l.drop (l.length - n) ++ [a] = (l ++ [a]).drop (l.length - n) :=
    (List.drop_append_of_le_length (Nat.sub_le _ _)).symm
  have hposition : l.length - n + (l.length + 1 - (l.length - n) - n) = l.length + 1 - n := by omega
  rw [hdrop, List.drop_drop, List.length_drop, List.length_append, List.length_singleton, hposition]

theorem lastThousand_snoc (trades : List ExecutedTrade) (trade : ExecutedTrade) :
    lastThousand (lastThousand trades ++ [trade]) = lastThousand (trades ++ [trade]) :=
  drop_window_snoc 1000 trades trade

theorem tradesOf_snoc (symbol : String) (events : List TopicEvent) (event : TopicEvent) :
    tradesOf symbol (events ++ [event]) = tradesOf symbol events ++ tradesOf symbol [event] :=
  List.filterMap_append

theorem getTrades_recordTrade (service : MarketDataService) (trade : ExecutedTrade) (symbol : String) :
    (service.recordTrade trade).getTrades symbol
      = if symbol = trade.symbol then lastThousand (service.getTrades trade.symbol ++ [trade])
        else service.getTrades symbol := by
  show ((service.trades.insert trade.symbol (lastThousand (service.getTrades trade.symbol ++ [trade]))).find
    symbol).getD [] = _
  rw [SortedMap.find_insert]
  split_ifs
  · exact Option.getD_some
  · rfl

theorem tickers_recordTrade (service : MarketDataService) (trade : ExecutedTrade) (symbol : String) :
    (service.recordTrade trade).tickers.find symbol
      = if symbol = trade.symbol then some (nextTicker (service.tickers.find trade.symbol) trade)
        else service.tickers.find symbol := by
  show (service.tickers.insert trade.symbol _).find symbol = _
  rw [SortedMap.find_insert]

/-- **What the service holds is a summary of what was delivered.** -/
theorem after_spec (events : List TopicEvent) (symbol : String) :
    (MarketDataService.new.after events).getTrades symbol = lastThousand (tradesOf symbol events) ∧
      Summarizes symbol (tradesOf symbol events) ((MarketDataService.new.after events).tickers.find symbol) := by
  induction events using List.reverseRecOn with
  | nil =>
      refine ⟨?_, ?_⟩
      · show [] = lastThousand []
        rw [lastThousand, List.drop_nil]
      constructor
      · exact iff_of_true rfl rfl
      all_goals
        intro t ht
        cases ht
  | append_singleton events event ih =>
      obtain ⟨htrades, hticker⟩ := ih
      rw [MarketDataService.after, List.foldl_concat, ← MarketDataService.after, tradesOf_snoc]
      cases event with
      | other =>
          rw [show tradesOf symbol [.other] = [] from rfl, List.append_nil]
          exact ⟨htrades, hticker⟩
      | tradeExecuted trade =>
          rw [MarketDataService.handle, getTrades_recordTrade, tickers_recordTrade]
          by_cases hsymbol : trade.symbol = symbol
          · subst hsymbol
            have hone : tradesOf trade.symbol [.tradeExecuted trade] = [trade] := by simp [tradesOf]
            rw [if_pos rfl, if_pos rfl, hone, htrades, lastThousand_snoc]
            exact ⟨rfl, hticker.snoc rfl⟩
          · have hnone : tradesOf symbol [.tradeExecuted trade] = [] := by simp [tradesOf, hsymbol]
            rw [if_neg fun h => hsymbol h.symm, if_neg fun h => hsymbol h.symm, hnone, List.append_nil]
            exact ⟨htrades, hticker⟩

/-! ### Deliveries -/

/-- The trades of a topic on a symbol. -/
def onSymbol (symbol : String) (log : List ExecutedTrade) : List ExecutedTrade :=
  log.filter fun trade => trade.symbol = symbol

/-- Trades that are the same apart from their order and how often they come. -/
theorem volumeOf_redelivered {delivered produced : List ExecutedTrade} (hnodup : produced.Nodup)
    (hsame : ∀ trade, trade ∈ delivered ↔ trade ∈ produced) (hpositive : ∀ trade ∈ produced, 0 < trade.quantity) :
    volumeOf produced ≤ volumeOf delivered ∧ (volumeOf delivered = volumeOf produced ↔ delivered.Nodup) := by
  have hperm : delivered.dedup.Perm produced :=
    (List.perm_ext_iff_of_nodup (List.nodup_dedup delivered) hnodup).mpr fun trade => by
      rw [List.mem_dedup, hsame]
  have hvolume : volumeOf produced = volumeOf delivered.dedup := (hperm.map _).sum_eq.symm
  rw [hvolume]
  exact Delivery.sum_redelivered fun trade htrade => hpositive trade ((hsame trade).mp htrade)

theorem pricesOf_congr {trades trades' : List ExecutedTrade} (h : ∀ trade, trade ∈ trades ↔ trade ∈ trades') :
    pricesOf trades = pricesOf trades' := by
  ext price
  simp only [pricesOf, Set.mem_ofPred_eq, h]

/-- **The ticker of a topic.**  The trades of a topic are delivered each at least once, in any order.  Then the highest
and the lowest price of the ticker are those of the trades, the last price is that of the last delivery, and the volume
is at least that of the trades, and exactly theirs if and only if no trade on the symbol was delivered twice. -/
theorem ticker_of_deliveries {log : List ExecutedTrade} {events : List TopicEvent} (hlog : log.Nodup)
    (hpositive : ∀ trade ∈ log, 0 < trade.quantity)
    (hdelivered : ∀ trade, .tradeExecuted trade ∈ events ↔ trade ∈ log) {symbol : String}
    (htraded : onSymbol symbol log ≠ []) :
    ∃ ticker, (MarketDataService.new.after events).tickers.find symbol = some ticker ∧
      IsGreatest (pricesOf (onSymbol symbol log)) ticker.high ∧
      IsLeast (pricesOf (onSymbol symbol log)) ticker.low ∧
      (∃ last, (tradesOf symbol events).getLast? = some last ∧ ticker.lastPrice = last.price) ∧
      volumeOf (onSymbol symbol log) ≤ ticker.volume ∧
      (ticker.volume = volumeOf (onSymbol symbol log) ↔ (tradesOf symbol events).Nodup) := by
  have hsame : ∀ trade, trade ∈ tradesOf symbol events ↔ trade ∈ onSymbol symbol log := by
    intro trade
    rw [mem_tradesOf, hdelivered, onSymbol, List.mem_filter, decide_eq_true_eq]
  obtain ⟨_, hticker⟩ := after_spec events symbol
  cases hfound : (MarketDataService.new.after events).tickers.find symbol with
  | none =>
      obtain ⟨trade, htrade⟩ := List.exists_mem_of_ne_nil _ htraded
      have hnone := hticker.absent.mp hfound
      rw [← hsame, hnone] at htrade
      cases htrade
  | some ticker =>
      have hquantities : ∀ trade ∈ onSymbol symbol log, 0 < trade.quantity :=
        fun trade htrade => hpositive trade (List.mem_of_mem_filter htrade)
      obtain ⟨hle, hiff⟩ := volumeOf_redelivered (hlog.filter _) hsame hquantities
      have hhigh := hticker.high ticker hfound
      have hlow := hticker.low ticker hfound
      rw [pricesOf_congr hsame] at hhigh hlow
      refine ⟨ticker, rfl, hhigh, hlow, hticker.last ticker hfound, ?_, ?_⟩
      · rw [hticker.volume ticker hfound]
        exact hle
      · rw [hticker.volume ticker hfound]
        exact hiff

/-- A trade of bitcoin. -/
def bitcoinTrade (id : String) (price quantity : Decimal) : ExecutedTrade where
  id := id
  symbol := "BTC-USDT"
  makerOrderId := "order-1"
  takerOrderId := "order-2"
  makerUserId := "alice"
  takerUserId := "bob"
  price := price
  quantity := quantity
  feeAsset := "USDT"
  makerFee := 0
  takerFee := 0
  executedAt := 0

/-- Two trades, of which the first is delivered last, and again. -/
theorem ticker_of_deliveries_twice :
    ∃ ticker, (MarketDataService.new.after
        ([bitcoinTrade "t2" 110 1, bitcoinTrade "t1" 100 2, bitcoinTrade "t1" 100 2].map .tradeExecuted)).tickers.find
          "BTC-USDT" = some ticker ∧
      ticker.high = 110 ∧ ticker.lastPrice = 100 ∧ ticker.volume ≠ 3 := by
  have hdelivered : ∀ trade : ExecutedTrade, TopicEvent.tradeExecuted trade
      ∈ [bitcoinTrade "t2" 110 1, bitcoinTrade "t1" 100 2, bitcoinTrade "t1" 100 2].map .tradeExecuted ↔
        trade ∈ [bitcoinTrade "t1" 100 2, bitcoinTrade "t2" 110 1] := by
    intro trade
    simp only [List.map_cons, List.map_nil, List.mem_cons, List.not_mem_nil, or_false, TopicEvent.tradeExecuted.injEq]
    tauto
  have htraded : onSymbol "BTC-USDT" [bitcoinTrade "t1" 100 2, bitcoinTrade "t2" 110 1] ≠ [] := by decide
  obtain ⟨ticker, hfound, hhigh, _, ⟨last, hlast, hprice⟩, _, hvolume⟩ :=
    ticker_of_deliveries (by decide) (by decide) hdelivered htraded
  refine ⟨ticker, hfound, ?_, ?_, fun h => ?_⟩
  · have hmax : IsGreatest (pricesOf (onSymbol "BTC-USDT" [bitcoinTrade "t1" 100 2, bitcoinTrade "t2" 110 1])) 110 := by
      refine ⟨⟨bitcoinTrade "t2" 110 1, by decide, rfl⟩, ?_⟩
      rintro _ ⟨trade, htrade, rfl⟩
      have hall : ∀ trade ∈ onSymbol "BTC-USDT" [bitcoinTrade "t1" 100 2, bitcoinTrade "t2" 110 1],
          trade.price ≤ 110 := by decide
      exact hall trade htrade
    exact hhigh.unique hmax
  · rw [hprice, ← Option.some.inj ((by decide : _ = some (bitcoinTrade "t1" 100 2)).symm.trans hlast)]
    rfl
  · have hnodup := hvolume.mp (h.trans (by decide +kernel))
    exact absurd hnodup (by decide)

/-! ### Klines -/

/-- The greatest of some values is found by going through them. -/
theorem isGreatest_foldl {α : Type} [LinearOrder α] (values : List α) :
    ∀ first, IsGreatest (insert first {value | value ∈ values})
      (values.foldl (fun greatest value => if greatest < value then value else greatest) first) := by
  induction values with
  | nil =>
      intro first
      simp
  | cons value values ih =>
      intro first
      have hnext := ih (if first < value then value else first)
      rw [List.foldl_cons]
      constructor
      · rcases hnext.1 with h | h
        · rw [h]
          split_ifs
          · exact .inr List.mem_cons_self
          · exact .inl rfl
        · exact .inr (List.mem_cons_of_mem value h)
      · have hfirst := hnext.2 (Set.mem_insert _ _)
        rintro other (rfl | hother)
        · refine le_trans ?_ hfirst
          split_ifs with hlt
          · exact hlt.le
          · exact le_refl _
        · rcases List.mem_cons.mp hother with rfl | hother
          · refine le_trans ?_ hfirst
            split_ifs with hlt
            · exact le_refl _
            · exact not_lt.mp hlt
          · exact hnext.2 (Set.mem_insert_of_mem _ hother)

theorem prices_cons (first : ExecutedTrade) (rest : List ExecutedTrade) :
    insert first.price {value | value ∈ (first :: rest).map fun trade => trade.price} = pricesOf (first :: rest) := by
  ext price
  simp only [pricesOf, List.mem_map, Set.mem_insert_iff, Set.mem_ofPred_eq]
  constructor
  · rintro (rfl | h)
    · exact ⟨first, List.mem_cons_self, rfl⟩
    · exact h
  · exact Or.inr

theorem isGreatest_decimalMax (first : ExecutedTrade) (rest : List ExecutedTrade) :
    IsGreatest (pricesOf (first :: rest))
      (MarketDataService.decimalMax first.price ((first :: rest).map fun trade => trade.price)) := by
  rw [← prices_cons]
  exact isGreatest_foldl _ first.price

theorem isLeast_decimalMin (first : ExecutedTrade) (rest : List ExecutedTrade) :
    IsLeast (pricesOf (first :: rest))
      (MarketDataService.decimalMin first.price ((first :: rest).map fun trade => trade.price)) := by
  rw [← prices_cons]
  exact isGreatest_foldl (α := Decimalᵒᵈ) _ first.price

theorem foldl_volume (trades : List ExecutedTrade) :
    ∀ total, trades.foldl (fun total trade => total + trade.quantity) total = total + volumeOf trades := by
  induction trades with
  | nil =>
      intro total
      simp [volumeOf]
  | cons trade trades ih =>
      intro total
      rw [List.foldl_cons, ih, volumeOf, volumeOf, List.map_cons, List.sum_cons, add_assoc]

/-- The volume of the last trades, and of all. -/
theorem volumeOf_lastThousand {trades : List ExecutedTrade} (hpositive : ∀ trade ∈ trades, 0 < trade.quantity) :
    volumeOf (lastThousand trades) ≤ volumeOf trades ∧
      (volumeOf (lastThousand trades) = volumeOf trades ↔ trades.length ≤ 1000) := by
  have hsplit : volumeOf (trades.take (trades.length - 1000)) + volumeOf (lastThousand trades) = volumeOf trades := by
    rw [volumeOf, volumeOf, ← List.sum_append, ← List.map_append, lastThousand, List.take_append_drop]
    rfl
  have hnonneg : 0 ≤ volumeOf (trades.take (trades.length - 1000)) := by
    refine List.sum_nonneg fun q hq => ?_
    obtain ⟨trade, htrade, rfl⟩ := List.mem_map.mp hq
    exact (hpositive trade (List.mem_of_mem_take htrade)).le
  refine ⟨by linarith, fun heq => ?_, fun hlength => ?_⟩
  · by_contra hlong
    obtain ⟨first, rest, hcons⟩ : ∃ first rest, trades.take (trades.length - 1000) = first :: rest := by
      apply List.exists_cons_of_ne_nil
      intro hnil
      have hlength := congrArg List.length hnil
      rw [List.length_take, List.length_nil] at hlength
      omega
    have hpos : 0 < volumeOf (trades.take (trades.length - 1000)) := by
      rw [volumeOf]
      apply List.sum_pos
      · intro q hq
        obtain ⟨trade, htrade, rfl⟩ := List.mem_map.mp hq
        exact hpositive trade (List.mem_of_mem_take htrade)
      · rw [hcons]
        exact List.cons_ne_nil _ _
    linarith
  · rw [lastThousand, Nat.sub_eq_zero_of_le hlength, List.drop_zero]

theorem pricesOf_lastThousand (trades : List ExecutedTrade) : pricesOf (lastThousand trades) ⊆ pricesOf trades := by
  intro price hprice
  obtain ⟨trade, htrade, hsame⟩ := hprice
  exact ⟨trade, List.mem_of_mem_drop htrade, hsame⟩

theorem getLast?_lastThousand (trades : List ExecutedTrade) :
    (lastThousand trades).getLast? = trades.getLast? := by
  rw [lastThousand, List.getLast?_drop]
  split_ifs with hshort
  · have hnil : trades = [] := List.eq_nil_of_length_eq_zero (by omega)
    rw [hnil, List.getLast?_nil]
  · rfl

/-- **The candle of the last trades** is well formed and lies within the ticker: it opens and closes between its lowest
and its highest price, closes at the last price, and has the volume of the ticker if and only if there were no more
than a thousand trades. -/
theorem kline_within_ticker {events : List TopicEvent} {symbol interval : String}
    (hpositive : ∀ trade ∈ tradesOf symbol events, 0 < trade.quantity) {kline : Kline}
    (hkline : kline ∈ (MarketDataService.new.after events).getKlines symbol interval) :
    ∃ ticker, (MarketDataService.new.after events).tickers.find symbol = some ticker ∧
      kline.low ≤ kline.openPrice ∧ kline.openPrice ≤ kline.high ∧ kline.low ≤ kline.close ∧ kline.close ≤ kline.high ∧
      ticker.low ≤ kline.low ∧ kline.high ≤ ticker.high ∧ kline.close = ticker.lastPrice ∧
      kline.volume ≤ ticker.volume ∧ (kline.volume = ticker.volume ↔ (tradesOf symbol events).length ≤ 1000) := by
  obtain ⟨htrades, hticker⟩ := after_spec events symbol
  rw [MarketDataService.getKlines, htrades] at hkline
  cases hretained : lastThousand (tradesOf symbol events) with
  | nil =>
      rw [hretained] at hkline
      cases hkline
  | cons first rest =>
      rw [hretained] at hkline
      have hwindow : pricesOf (first :: rest) ⊆ pricesOf (tradesOf symbol events) := by
        rw [← hretained]
        exact pricesOf_lastThousand _
      have hlast : (tradesOf symbol events).getLast? = (first :: rest).getLast? := by
        rw [← hretained]
        exact (getLast?_lastThousand _).symm
      have hvolume := volumeOf_lastThousand hpositive
      rw [hretained] at hvolume
      have hhigh := isGreatest_decimalMax first rest
      have hlow := isLeast_decimalMin first rest
      have hopen : first.price ∈ pricesOf (first :: rest) := ⟨first, List.mem_cons_self, rfl⟩
      have hclose : ((first :: rest).getLast (List.cons_ne_nil first rest)).price ∈ pricesOf (first :: rest) :=
        ⟨_, List.getLast_mem _, rfl⟩
      cases hfound : (MarketDataService.new.after events).tickers.find symbol with
      | none =>
          have hnone := hticker.absent.mp hfound
          rw [hnone] at hretained
          cases hretained
      | some ticker =>
          obtain ⟨last, hlastTrade, hprice⟩ := hticker.last ticker hfound
          rw [hlast, List.getLast?_eq_some_getLast (List.cons_ne_nil first rest), Option.some.injEq] at hlastTrade
          rw [List.mem_singleton.mp hkline]
          refine ⟨ticker, rfl, hlow.2 hopen, hhigh.2 hopen, hlow.2 hclose, hhigh.2 hclose, ?_, ?_, ?_, ?_⟩
          · exact (hticker.low ticker hfound).2 (hwindow hlow.1)
          · exact (hticker.high ticker hfound).2 (hwindow hhigh.1)
          · rw [hprice, ← hlastTrade]
          · simp only [foldl_volume, zero_add, hticker.volume ticker hfound]
            exact hvolume

/-- Two trades, of which the second is lower. -/
theorem kline_within_ticker_falling :
    ∃ ticker, (MarketDataService.new.after
        ([bitcoinTrade "t1" 110 1, bitcoinTrade "t2" 100 2].map .tradeExecuted)).tickers.find "BTC-USDT" = some ticker ∧
      (100 : Decimal) = ticker.lastPrice ∧ ticker.low ≤ 100 ∧ 110 ≤ ticker.high := by
  have hkline : (⟨"BTC-USDT", "1m", 0, 110, 110, 100, 100, 3⟩ : Kline) ∈ (MarketDataService.new.after
      ([bitcoinTrade "t1" 110 1, bitcoinTrade "t2" 100 2].map .tradeExecuted)).getKlines "BTC-USDT" "1m" := by
    decide +kernel
  obtain ⟨ticker, hfound, _, _, _, _, hlow, hhigh, hclose, _⟩ := kline_within_ticker (by decide +kernel) hkline
  exact ⟨ticker, hfound, hclose, hlow, hhigh⟩

end NexusTrade.MarketData
