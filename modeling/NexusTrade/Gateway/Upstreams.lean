import Mathlib.Data.List.TakeWhile
import NexusTrade.Gateway.Routes

/-!
# What an upstream reads

A request is read as its upstream reads it: the address is resolved as `fetch` resolves it, split at its slashes,
matched with the routes of the upstream's controller, and the parameters are decoded.  The words of a route are
compared letter by letter, and how the services check the rest of a body is left out.

* **`segmentsOf`**, **`param`** and **`queryParam`**: the parts of an address;
* **`reach`**: whose account a forwarded request is about;
* **`segmentsOf_param`** and **`listed_encode`**: the upstream finds the parameter that the gateway has encoded;
* **`reach_user`** and the lemmas after it: the addresses of the handlers.
-/

namespace NexusTrade.Gateway

/-! ### What an upstream reads -/

/-- The path of an address. -/
def pathOf (address : String) : List Char := address.toList.takeWhile fun c => c ≠ '?' && c ≠ '#'

/-- The segments that stand for the segment itself. -/
def singleDots : List String := [".", "%2e", "%2E"]

/-- The segments that stand for the segment above. -/
def doubleDots : List String :=
  ["..", ".%2e", ".%2E", "%2e.", "%2E.", "%2e%2e", "%2e%2E", "%2E%2e", "%2E%2E"]

def isSingleDot (segment : List Char) : Bool := singleDots.any fun dot => dot.toList = segment

def isDoubleDot (segment : List Char) : Bool := doubleDots.any fun dot => dot.toList = segment

/-- The segments that are left when those with dots are resolved. -/
def resolveDots (done : List (List Char)) : List (List Char) → List (List Char)
  | [] => done
  | [segment] =>
    if isDoubleDot segment then done.dropLast ++ [[]]
    else if isSingleDot segment then done ++ [[]]
    else done ++ [segment]
  | segment :: segments =>
    if isDoubleDot segment then resolveDots done.dropLast segments
    else if isSingleDot segment then resolveDots done segments
    else resolveDots (done ++ [segment]) segments

/-- A slash at the end of a path is optional. -/
def dropSlash (segments : List (List Char)) : List (List Char) :=
  if segments.getLast? = some [] then segments.dropLast else segments

/-- The segments of an address, as a router matches them. -/
def segmentsOf (address : String) : List String :=
  (dropSlash (resolveDots [] (((pathOf address).splitOn '/').drop 1))).map String.ofList

/-- A parameter in a path. -/
def param (segment : String) : Option String := (Percent.decode segment.toList).map String.ofList

/-- A parameter in a query. -/
def queryParam (name : String) (address : String) : Option String :=
  let query := (address.toList.dropWhile (· ≠ '?')).drop 1
  ((query.splitOn '&').find? fun entry => entry.takeWhile (· ≠ '=') = name.toList).map fun entry =>
    let value := ((entry.dropWhile (· ≠ '=')).drop 1).map fun c => if c = '+' then ' ' else c
    String.ofList ((Percent.decode value).getD value)

/-- Whose account a request is about: nobody's, a user's, or that of whom it may concern. -/
inductive Reach
  | nothing
  | account (userId : String)
  | staff
  deriving DecidableEq

/-- The account that a parameter names; a parameter that cannot be decoded is refused. -/
def named (segment : String) : Reach := (param segment).elim .nothing .account

/-- The account that a body names; a `userId` that is no text is refused. -/
def namedIn (body : Option Body) : Reach := ((body.bind fun body => stringField body "userId")).elim .nothing .account

/-- The account whose entries are listed, or all of them. -/
def listed (address : String) : Reach := (configured (queryParam "userId" address)).elim .staff .account

/-- The routes of `wallet.controller.ts`. -/
def walletReach (method : String) : List String → Reach
  | ["wallets", second] => if method = "GET" then named second else .staff
  | ["wallets", second, _] => if method = "GET" then named second else .staff
  | _ => .nothing

/-- The routes of `user.controller.ts`. -/
def userReach (method : String) : List String → Reach
  | ["users", userId, "profile"] => named userId
  | ["users", userId, "kyc"] => named userId
  | ["users", userId, "address-book"] => named userId
  | ["users", userId, third, _] => if method = "POST" && third = "referrals" then named userId else .staff
  | _ => .nothing

/-- The routes of `trading.controller.ts`. -/
def tradingReach (method : String) (body : Option Body) : List String → Reach
  | ["orders"] => if method = "POST" then namedIn body else .staff
  | ["orders", _] => .staff
  | ["trades"] => .staff
  | _ => .nothing

/-- The routes of `deposit.controller.ts`. -/
def depositReach (address : String) (body : Option Body) : List String → Reach
  | ["deposits", "address"] => namedIn body
  | ["deposits", "simulate"] => namedIn body
  | ["deposits", _, "confirm", _] => .staff
  | ["deposits"] => listed address
  | _ => .nothing

/-- The routes of `withdrawal.controller.ts`. -/
def withdrawalReach (method address : String) (body : Option Body) : List String → Reach
  | ["withdrawals", "whitelist", userId] => named userId
  | ["withdrawals", _, _] => .staff
  | ["withdrawals"] => if method = "POST" then namedIn body else listed address
  | _ => .nothing

/-- The routes of `auth.controller.ts`. -/
def authReach : List String → Reach
  | ["auth", "register"] => .nothing
  | ["auth", "login"] => .nothing
  | _ => .staff

/-- The routes of `risk.controller.ts`. -/
def riskReach (body : Option Body) : List String → Reach
  | ["risk", "evaluate"] => namedIn body
  | _ => .nothing

/-- The routes of `compliance.controller.ts`. -/
def complianceReach (body : Option Body) : List String → Reach
  | ["compliance", "screen"] => namedIn body
  | _ => .nothing

/-- The routes of `notification.controller.ts`: a message to any address, and the messages to everybody. -/
def notificationReach : List String → Reach
  | ["notifications"] => .staff
  | _ => .nothing

/-- **Whose account a forwarded request is about**, as its upstream reads it. -/
def reach (forward : Forwarded) : Reach :=
  match forward.base with
  | .wallet => walletReach forward.method (segmentsOf forward.path)
  | .user => userReach forward.method (segmentsOf forward.path)
  | .trading => tradingReach forward.method forward.body (segmentsOf forward.path)
  | .deposit => depositReach forward.path forward.body (segmentsOf forward.path)
  | .withdrawal => withdrawalReach forward.method forward.path forward.body (segmentsOf forward.path)
  | .auth => authReach (segmentsOf forward.path)
  | .risk => riskReach forward.body (segmentsOf forward.path)
  | .compliance => complianceReach forward.body (segmentsOf forward.path)
  | .notification => notificationReach (segmentsOf forward.path)
  | .marketData => .nothing

/-- A user id that is a segment of its own in a path. -/
def Plain (userId : String) : Prop := userId ≠ "." ∧ userId ≠ ".."

/-! ### Addresses that the gateway writes -/

theorem unreserved_percent : unreserved '%' = false := by decide

theorem toList_encodeURIComponent (value : String) :
    (encodeURIComponent value).toList = Percent.encode unreserved value.toList := by
  rw [encodeURIComponent, String.toList_ofList]

theorem param_encode (value : String) : param (encodeURIComponent value) = some value := by
  rw [param, toList_encodeURIComponent, Percent.decode_encode unreserved_percent]
  show some (String.ofList value.toList) = some value
  rw [String.ofList_toList]

/-- No character of a parameter separates the parts of an address. -/
theorem separator_not_mem {c : Char} (hc : c ∈ "/?#&=+".toList) (value : String) :
    c ∉ Percent.encode unreserved value.toList := by
  have hall : "/?#&=+".toList.all fun c => !unreserved c && c != '%' && (Percent.hexValue c).isNone := by decide
  have hthis := List.all_eq_true.mp hall c hc
  simp only [Bool.and_eq_true, Bool.not_eq_true', bne_iff_ne, Option.isNone_iff_eq_none] at hthis
  obtain ⟨⟨hkept, hpercent⟩, hdigit⟩ := hthis
  exact Percent.not_mem_encode hkept hpercent hdigit value.toList

/-- A text that holds no separator of a path. -/
def Separate (segment : List Char) : Prop := '/' ∉ segment ∧ '?' ∉ segment ∧ '#' ∉ segment

instance (segment : List Char) : Decidable (Separate segment) := inferInstanceAs (Decidable (_ ∧ _))

theorem separate_encode (value : String) : Separate (Percent.encode unreserved value.toList) :=
  ⟨separator_not_mem (by decide) value, separator_not_mem (by decide) value, separator_not_mem (by decide) value⟩

/-- A text that stands for itself in a path. -/
def Undotted (segment : List Char) : Prop := isSingleDot segment = false ∧ isDoubleDot segment = false

instance (segment : List Char) : Decidable (Undotted segment) := inferInstanceAs (Decidable (_ ∧ _))

theorem undotted_encode {value : String} (h : Plain value) : Undotted (Percent.encode unreserved value.toList) := by
  have hread := Percent.decode_encode unreserved_percent value.toList
  have hsingle : ∀ dot ∈ singleDots, Percent.decode dot.toList = some ".".toList := by decide
  have hdouble : ∀ dot ∈ doubleDots, Percent.decode dot.toList = some "..".toList := by decide
  constructor
  · refine List.any_eq_false.mpr fun dot hdot heq => h.1 ?_
    rw [← of_decide_eq_true heq, hsingle dot hdot] at hread
    exact (String.toList_inj.mp (Option.some.inj hread)).symm
  · refine List.any_eq_false.mpr fun dot hdot heq => h.2 ?_
    rw [← of_decide_eq_true heq, hdouble dot hdot] at hread
    exact (String.toList_inj.mp (Option.some.inj hread)).symm

theorem encode_ne_nil {value : String} (h : value ≠ "") : Percent.encode unreserved value.toList ≠ [] := by
  intro hnil
  have hread := Percent.decode_encode unreserved_percent value.toList
  rw [hnil] at hread
  have hempty : "".toList = value.toList := Option.some.inj hread
  exact h (String.toList_inj.mp hempty).symm

/-! ### Resolving them -/

/-- The segments before the last one stay; what the last one stands for depends on its dots. -/
theorem resolveDots_append (last : List Char) (segments : List (List Char)) :
    ∀ done : List (List Char), (∀ segment ∈ segments, Undotted segment) →
      resolveDots done (segments ++ [last])
        = if isDoubleDot last then (done ++ segments).dropLast ++ [[]]
          else if isSingleDot last then done ++ segments ++ [[]]
          else done ++ segments ++ [last] := by
  induction segments with
  | nil =>
      intro done _
      rw [List.nil_append, resolveDots, List.append_nil]
  | cons segment segments ih =>
      intro done h
      have hhead := h segment List.mem_cons_self
      have htail := ih (done ++ [segment]) fun other ho => h other (List.mem_cons_of_mem segment ho)
      obtain ⟨next, rest, hrest⟩ : ∃ next rest, segments ++ [last] = next :: rest :=
        List.exists_cons_of_ne_nil (List.append_ne_nil_of_right_ne_nil segments (List.cons_ne_nil last []))
      rw [List.cons_append, hrest, resolveDots, hhead.2, hhead.1, ← hrest]
      simp only [Bool.false_eq_true, if_false]
      rw [htail, List.append_assoc, List.singleton_append]
      simp

/-- The segments of a path. -/
theorem split_path {address : String} {segments : List (List Char)} (hpath : pathOf address = Percent.joined '/' segments)
    (hseparate : ∀ segment ∈ segments, Separate segment) : ((pathOf address).splitOn '/').drop 1 = segments := by
  have hsplit : (Percent.joined '/' segments).splitOn '/' = [] :: segments :=
    Percent.splitOn_joined segments List.not_mem_nil fun s hs => (hseparate s hs).1
  rw [hpath, hsplit]
  rfl

/-- A path without a query is all of its address. -/
theorem pathOf_joined {address : String} {segments : List (List Char)}
    (haddress : address.toList = Percent.joined '/' segments)
    (hseparate : ∀ segment ∈ segments, Separate segment) : pathOf address = Percent.joined '/' segments := by
  rw [pathOf, haddress]
  refine List.takeWhile_eq_self_iff.mpr fun c hc => ?_
  obtain ⟨segment, hsegment, hmem⟩ := List.mem_flatMap.mp hc
  have hclear := hseparate segment hsegment
  rcases List.mem_cons.mp hmem with rfl | hmem
  · rfl
  · have hquestion : c ≠ '?' := fun h => hclear.2.1 (h ▸ hmem)
    have hhash : c ≠ '#' := fun h => hclear.2.2 (h ▸ hmem)
    simp [hquestion, hhash]

/-- **A path of segments without dots is read segment by segment.** -/
theorem segmentsOf_written {address : String} (segments : List String) {last : String}
    (haddress : address.toList = Percent.joined '/' ((segments ++ [last]).map String.toList))
    (hseparate : ∀ segment ∈ segments ++ [last], Separate segment.toList)
    (hdots : ∀ segment ∈ segments ++ [last], Undotted segment.toList) (hlast : last ≠ "") :
    segmentsOf address = segments ++ [last] := by
  have hfront : ∀ segment ∈ segments.map String.toList, Undotted segment := by
    intro segment hsegment
    obtain ⟨text, htext, rfl⟩ := List.mem_map.mp hsegment
    exact hdots text (List.mem_append_left [last] htext)
  have hall : ∀ segment ∈ (segments ++ [last]).map String.toList, Separate segment := by
    intro segment hsegment
    obtain ⟨text, htext, rfl⟩ := List.mem_map.mp hsegment
    exact hseparate text htext
  have hend := hdots last (List.mem_append_right segments List.mem_cons_self)
  have hsegments : (segments ++ [last]).map String.toList = segments.map String.toList ++ [last.toList] :=
    List.map_append
  rw [segmentsOf, split_path (pathOf_joined haddress hall) hall, hsegments,
    resolveDots_append last.toList (segments.map String.toList) [] hfront, hend.2, hend.1]
  simp only [Bool.false_eq_true, if_false, List.nil_append]
  rw [dropSlash, List.getLast?_append, List.getLast?_singleton, Option.some_or, if_neg]
  · rw [← hsegments, List.map_map]
    exact (List.map_congr_left fun text _ => String.ofList_toList).trans (List.map_id _)
  · intro h
    exact hlast (String.toList_inj.mp (Option.some.inj h))

/-! ### Reading the addresses of the handlers -/

/-- A parameter that is not a text with dots, as a segment. -/
theorem encoded_segment {value : String} (h : Plain value) :
    Separate (encodeURIComponent value).toList ∧ Undotted (encodeURIComponent value).toList := by
  rw [toList_encodeURIComponent]
  exact ⟨separate_encode value, undotted_encode h⟩

theorem encodeURIComponent_ne {value : String} (h : value ≠ "") : encodeURIComponent value ≠ "" := by
  intro hempty
  refine encode_ne_nil h ?_
  rw [← toList_encodeURIComponent, hempty]
  rfl

/-- A parameter between other segments. -/
theorem segmentsOf_param {address value : String} (front back : List String)
    (haddress : address.toList
      = Percent.joined '/' ((front ++ encodeURIComponent value :: back).map String.toList))
    (hstatic : ∀ segment ∈ front ++ back, Separate segment.toList ∧ Undotted segment.toList ∧ segment ≠ "")
    (hplain : Plain value) (hvalue : value ≠ "") :
    segmentsOf address = front ++ encodeURIComponent value :: back := by
  have hall : ∀ segment ∈ front ++ encodeURIComponent value :: back,
      Separate segment.toList ∧ Undotted segment.toList ∧ segment ≠ "" := by
    intro segment hsegment
    rcases List.mem_append.mp hsegment with h | h
    · exact hstatic segment (List.mem_append_left back h)
    · rcases List.mem_cons.mp h with rfl | h
      · exact ⟨(encoded_segment hplain).1, (encoded_segment hplain).2, encodeURIComponent_ne hvalue⟩
      · exact hstatic segment (List.mem_append_right front h)
  obtain ⟨init, last, hinit⟩ : ∃ init last, front ++ encodeURIComponent value :: back = init ++ [last] := by
    have hne : front ++ encodeURIComponent value :: back ≠ [] := by simp
    exact ⟨_, _, (List.dropLast_append_getLast hne).symm⟩
  rw [hinit] at hall haddress ⊢
  exact segmentsOf_written init haddress (fun segment hs => (hall segment hs).1)
    (fun segment hs => (hall segment hs).2.1)
    (hall last (List.mem_append_right init List.mem_cons_self)).2.2

/-- The account that an encoded parameter names. -/
theorem named_encode (value : String) : named (encodeURIComponent value) = .account value := by
  rw [named, param_encode]
  rfl

/-- A list of everything that belongs to one account. -/
theorem listed_encode {path : String} (hpath : '?' ∉ path.toList) {value : String} (hvalue : value ≠ "") :
    listed (path ++ "?userId=" ++ encodeURIComponent value) = .account value := by
  have haddress : (path ++ "?userId=" ++ encodeURIComponent value).toList
      = path.toList ++ '?' :: ("userId=".toList ++ Percent.encode unreserved value.toList) := by
    simp [toList_encodeURIComponent]
  have hquery : ((path ++ "?userId=" ++ encodeURIComponent value).toList.dropWhile (· ≠ '?')).drop 1
      = "userId=".toList ++ Percent.encode unreserved value.toList := by
    rw [haddress, List.dropWhile_append_of_pos]
    · rfl
    · intro c hc
      exact decide_eq_true fun h => hpath (h ▸ hc)
  have hsplit : ("userId=".toList ++ Percent.encode unreserved value.toList).splitOn '&'
      = ["userId=".toList ++ Percent.encode unreserved value.toList] := by
    refine List.splitOn_eq_singleton fun h => ?_
    rcases List.mem_append.mp h with h | h
    · exact absurd h (by decide)
    · exact separator_not_mem (by decide) value h
  have hplus : (Percent.encode unreserved value.toList).map (fun c => if c = '+' then ' ' else c)
      = Percent.encode unreserved value.toList := by
    refine (List.map_congr_left fun c hc => if_neg fun h => ?_).trans (List.map_id _)
    exact separator_not_mem (by decide) value (h ▸ hc)
  have hparam : queryParam "userId" (path ++ "?userId=" ++ encodeURIComponent value) = some value := by
    rw [queryParam, hquery, hsplit]
    show some (String.ofList ((Percent.decode
      ((Percent.encode unreserved value.toList).map fun c => if c = '+' then ' ' else c)).getD _)) = some value
    rw [hplus, Percent.decode_encode unreserved_percent]
    exact congrArg some String.ofList_toList
  rw [listed, hparam, configured, Option.filter_some, if_pos (by simpa using hvalue)]
  rfl

/-- A query is no part of the path. -/
theorem segmentsOf_query {path : String} (hpath : '?' ∉ path.toList ∧ '#' ∉ path.toList) (query : String) :
    segmentsOf (path ++ "?userId=" ++ query) = segmentsOf path := by
  have heach : ∀ c ∈ path.toList, c ≠ '?' ∧ c ≠ '#' :=
    fun c hc => ⟨fun h => hpath.1 (h ▸ hc), fun h => hpath.2 (h ▸ hc)⟩
  have hwhole : pathOf path = path.toList := by
    refine List.takeWhile_eq_self_iff.mpr fun c hc => ?_
    obtain ⟨hquestion, hhash⟩ := heach c hc
    simp [hquestion, hhash]
  have hcut : pathOf (path ++ "?userId=" ++ query) = path.toList := by
    rw [pathOf, String.toList_append, String.toList_append, List.append_assoc, List.takeWhile_append_of_pos]
    · exact List.append_nil path.toList
    · intro c hc
      obtain ⟨hquestion, hhash⟩ := heach c hc
      simp [hquestion, hhash]
  rw [segmentsOf, hcut, segmentsOf, hwhole]

/-- A referral is read as one of its user, or it has no route. -/
theorem reach_referral {userId : String} (hplain : Plain userId) (referredUserId : String) :
    userReach "POST" (segmentsOf
      ("/users/" ++ encodeURIComponent userId ++ "/referrals/" ++ encodeURIComponent referredUserId))
      = .account userId ∨
    userReach "POST" (segmentsOf
      ("/users/" ++ encodeURIComponent userId ++ "/referrals/" ++ encodeURIComponent referredUserId))
      = .nothing := by
  set user := Percent.encode unreserved userId.toList with huser
  set referred := Percent.encode unreserved referredUserId.toList with hreferred
  have haddress : ("/users/" ++ encodeURIComponent userId ++ "/referrals/"
      ++ encodeURIComponent referredUserId).toList
        = Percent.joined '/' (["users".toList, user, "referrals".toList] ++ [referred]) := by
    simp [Percent.joined, toList_encodeURIComponent, huser, hreferred]
  have hseparate : ∀ segment ∈ ["users".toList, user, "referrals".toList] ++ [referred], Separate segment := by
    intro segment hsegment
    simp only [List.cons_append, List.nil_append, List.mem_cons, List.not_mem_nil, or_false] at hsegment
    rcases hsegment with rfl | rfl | rfl | rfl
    · decide
    · exact separate_encode userId
    · decide
    · exact separate_encode referredUserId
  have hdots : ∀ segment ∈ ["users".toList, user, "referrals".toList], Undotted segment := by
    intro segment hsegment
    simp only [List.mem_cons, List.not_mem_nil, or_false] at hsegment
    rcases hsegment with rfl | rfl | rfl
    · decide
    · exact undotted_encode hplain
    · decide
  rw [segmentsOf, split_path (pathOf_joined haddress hseparate) hseparate,
    resolveDots_append referred ["users".toList, user, "referrals".toList] [] hdots]
  by_cases hdouble : isDoubleDot referred = true
  · rw [if_pos hdouble]
    exact .inr rfl
  by_cases hsingle : isSingleDot referred = true
  · rw [if_neg hdouble, if_pos hsingle]
    exact .inr rfl
  rw [if_neg hdouble, if_neg hsingle]
  by_cases hempty : referred = []
  · rw [hempty]
    exact .inr rfl
  · have hkept : dropSlash ([] ++ ["users".toList, user, "referrals".toList] ++ [referred])
        = ["users".toList, user, "referrals".toList, referred] := by
      rw [dropSlash, List.getLast?_append, List.getLast?_singleton, Option.some_or,
        if_neg fun h => hempty (Option.some.inj h)]
      rfl
    rw [hkept]
    left
    show named (String.ofList user) = .account userId
    rw [huser, ← encodeURIComponent]
    exact named_encode userId

/-! ### What the handlers forward -/

section Forwards

variable (headers : List (String × String))

theorem reach_wallet {userId : String} (hplain : Plain userId) (huser : userId ≠ "") :
    reach ⟨.wallet, "GET", "/wallets/" ++ encodeURIComponent userId, headers, none⟩ = .account userId := by
  have hsegments : segmentsOf ("/wallets/" ++ encodeURIComponent userId)
      = ["wallets"] ++ [encodeURIComponent userId] :=
    segmentsOf_param ["wallets"] [] (by simp [Percent.joined, toList_encodeURIComponent]) (by decide) hplain huser
  simp only [reach, hsegments]
  exact named_encode userId

/-- The routes of a user that end in a segment of the service. -/
theorem reach_user (last : String) {suffix : String} (hsuffix : suffix.toList = '/' :: last.toList)
    (hlast : last ∈ ["profile", "kyc", "address-book"]) (method : String)
    (body : Option Body) {userId : String} (hplain : Plain userId) (huser : userId ≠ "") :
    reach ⟨.user, method, "/users/" ++ encodeURIComponent userId ++ suffix, headers, body⟩ = .account userId := by
  have hstatic : ∀ segment ∈ ["users"] ++ [last], Separate segment.toList ∧ Undotted segment.toList ∧ segment ≠ "" := by
    have hall : ∀ last ∈ ["profile", "kyc", "address-book"], ∀ segment ∈ ["users"] ++ [last],
        Separate segment.toList ∧ Undotted segment.toList ∧ segment ≠ "" := by decide
    exact hall last hlast
  have hsegments : segmentsOf ("/users/" ++ encodeURIComponent userId ++ suffix)
      = ["users"] ++ encodeURIComponent userId :: [last] :=
    segmentsOf_param ["users"] [last] (by simp [Percent.joined, toList_encodeURIComponent, hsuffix])
      hstatic hplain huser
  simp only [reach, hsegments]
  simp only [List.mem_cons, List.not_mem_nil, or_false] at hlast
  rcases hlast with rfl | rfl | rfl <;> exact named_encode userId

theorem reach_whitelist (body : Option Body) {userId : String} (hplain : Plain userId) (huser : userId ≠ "") :
    reach ⟨.withdrawal, "POST", "/withdrawals/whitelist/" ++ encodeURIComponent userId, headers, body⟩
      = .account userId := by
  have hsegments : segmentsOf ("/withdrawals/whitelist/" ++ encodeURIComponent userId)
      = ["withdrawals", "whitelist"] ++ [encodeURIComponent userId] :=
    segmentsOf_param ["withdrawals", "whitelist"] [] (by simp [Percent.joined, toList_encodeURIComponent])
      (by decide) hplain huser
  simp only [reach, hsegments]
  exact named_encode userId

theorem reach_order (userId : String) (body : Body) :
    reach ⟨.trading, "POST", "/orders", headers, some (orderBody userId body)⟩ = .account userId := by
  have hsegments : segmentsOf "/orders" = ["orders"] := by decide
  simp only [reach, hsegments]
  rfl

theorem reach_depositAddress (body : Body) :
    reach ⟨.deposit, "POST", "/deposits/address", headers, some body⟩ = namedIn (some body) := by
  have hsegments : segmentsOf "/deposits/address" = ["deposits", "address"] := by decide
  simp only [reach, hsegments]
  rfl

theorem reach_simulateDeposit (body : Body) :
    reach ⟨.deposit, "POST", "/deposits/simulate", headers, some body⟩ = namedIn (some body) := by
  have hsegments : segmentsOf "/deposits/simulate" = ["deposits", "simulate"] := by decide
  simp only [reach, hsegments]
  rfl

theorem reach_requestWithdrawal (body : Body) :
    reach ⟨.withdrawal, "POST", "/withdrawals", headers, some body⟩ = namedIn (some body) := by
  have hsegments : segmentsOf "/withdrawals" = ["withdrawals"] := by decide
  simp only [reach, hsegments]
  rfl

theorem reach_listDeposits (userId : String) :
    reach ⟨.deposit, "GET", "/deposits" ++ "?userId=" ++ encodeURIComponent userId, headers, none⟩
      = listed ("/deposits" ++ "?userId=" ++ encodeURIComponent userId) := by
  have hsegments : segmentsOf ("/deposits" ++ "?userId=" ++ encodeURIComponent userId) = ["deposits"] := by
    rw [segmentsOf_query (by decide)]
    decide
  simp only [reach, hsegments]
  rfl

theorem reach_listWithdrawals (userId : String) :
    reach ⟨.withdrawal, "GET", "/withdrawals" ++ "?userId=" ++ encodeURIComponent userId, headers, none⟩
      = listed ("/withdrawals" ++ "?userId=" ++ encodeURIComponent userId) := by
  have hsegments : segmentsOf ("/withdrawals" ++ "?userId=" ++ encodeURIComponent userId) = ["withdrawals"] := by
    rw [segmentsOf_query (by decide)]
    decide
  simp only [reach, hsegments]
  rfl

/-- Registering and logging in are about no account. -/
theorem reach_auth {path : String} (hpath : path ∈ ["/auth/register", "/auth/login"]) (body : Option Body) :
    reach ⟨.auth, "POST", path, headers, body⟩ = .nothing := by
  simp only [List.mem_cons, List.not_mem_nil, or_false] at hpath
  rcases hpath with rfl | rfl
  · have hsegments : segmentsOf "/auth/register" = ["auth", "register"] := by decide
    simp only [reach, hsegments]
    rfl
  · have hsegments : segmentsOf "/auth/login" = ["auth", "login"] := by decide
    simp only [reach, hsegments]
    rfl

/-- What the risk engine and the compliance service tell everybody. -/
theorem reach_open {base : Upstream} {path : String}
    (h : (base, path) ∈ [(Upstream.risk, "/risk/insurance-fund"), (.compliance, "/compliance/regulatory-matrix")]) :
    reach ⟨base, "GET", path, headers, none⟩ = .nothing := by
  simp only [List.mem_cons, List.not_mem_nil, or_false, Prod.mk.injEq] at h
  rcases h with ⟨rfl, rfl⟩ | ⟨rfl, rfl⟩
  · have hsegments : segmentsOf "/risk/insurance-fund" = ["risk", "insurance-fund"] := by decide
    simp only [reach, hsegments]
    rfl
  · have hsegments : segmentsOf "/compliance/regulatory-matrix" = ["compliance", "regulatory-matrix"] := by decide
    simp only [reach, hsegments]
    rfl

theorem reach_evaluateRisk (body : Body) :
    reach ⟨.risk, "POST", "/risk/evaluate", headers, some body⟩ = namedIn (some body) := by
  have hsegments : segmentsOf "/risk/evaluate" = ["risk", "evaluate"] := by decide
  simp only [reach, hsegments]
  rfl

theorem reach_screenCompliance (body : Body) :
    reach ⟨.compliance, "POST", "/compliance/screen", headers, some body⟩ = namedIn (some body) := by
  have hsegments : segmentsOf "/compliance/screen" = ["compliance", "screen"] := by decide
  simp only [reach, hsegments]
  rfl

theorem reach_notifications (method : String) (body : Option Body) :
    reach ⟨.notification, method, "/notifications", headers, body⟩ = .staff := by
  have hsegments : segmentsOf "/notifications" = ["notifications"] := by decide
  simp only [reach, hsegments]
  rfl

end Forwards

end NexusTrade.Gateway
