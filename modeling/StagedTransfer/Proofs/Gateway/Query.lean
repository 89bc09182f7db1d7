import StagedTransfer.Proofs.Encoding.Form
import StagedTransfer.Proofs.Gateway.Address
import StagedTransfer.Proofs.Session.Writing

/-!
# Parameters of requests

Calls that name a remote path name it in the query of their request, and so does the removal of a path
with the account that pays for it. Whoever reads the query as a form reads what the caller has named,
and nothing else, whatever it is made of. The path of an address has no mark in it that begins or ends
a query, so that the query that is read is the one that has been written.
-/

namespace StagedTransfer

open Http Url

/-! ### Queries -/

namespace Http.Url

variable {u : Url} {text : String} {cs : List Char}

/-- The query of what a request line names: it begins after the first question mark and ends before
a number sign. -/
def queryOf (target : List Char) : List Char :=
  ((target.takeWhile (· ≠ '#')).dropWhile (· ≠ '?')).drop 1

/-- No mark that begins or ends a query stands in the text. -/
def IsUnmarked (cs : List Char) : Prop :=
  ∀ c ∈ cs, c ≠ '?' ∧ c ≠ '#'

lemma isUnmarked_nil : IsUnmarked [] := by
  rintro c ⟨⟩

lemma isUnmarked_encode (cs : List Char) : IsUnmarked (Percent.encode isPathChar cs) := by
  refine Percent.forall_mem_encode (fun c kept => ⟨?_, ?_⟩) (by decide) (by decide)
  · rintro rfl
    exact absurd kept (by decide)
  · rintro rfl
    exact absurd kept (by decide)

lemma forall_mem_resolve {p : List Char → Prop} (nil : p []) {before segments : List (List Char)}
    (hb : ∀ s ∈ before, p s) (hs : ∀ s ∈ segments, p s) : ∀ s ∈ resolve before segments, p s := by
  have init {before : List (List Char)} (hb : ∀ s ∈ before, p s) : ∀ s ∈ before.dropLast, p s :=
    fun s mem => hb s (List.dropLast_subset _ mem)
  have snoc {before : List (List Char)} {t : List Char} (hb : ∀ s ∈ before, p s) (ht : p t) :
      ∀ s ∈ before ++ [t], p s := by
    intro s mem
    rcases List.mem_append.1 mem with mem | mem
    · exact hb s mem
    · rwa [List.mem_singleton.1 mem]
  fun_induction resolve before segments with
  | case1 before => exact hb
  | case2 before s above => exact snoc (init hb) nil
  | case3 before s _ here => exact snoc hb nil
  | case4 before s _ _ => exact snoc hb (hs s List.mem_cons_self)
  | case5 before s ss _ above ih =>
    exact ih (init hb) fun t ht => hs t (List.mem_cons_of_mem _ ht)
  | case6 before s ss _ _ here ih => exact ih hb fun t ht => hs t (List.mem_cons_of_mem _ ht)
  | case7 before s ss _ _ _ ih =>
    exact ih (snoc hb (hs s List.mem_cons_self)) fun t ht => hs t (List.mem_cons_of_mem _ ht)

lemma isUnmarked_pathOf (cs : List Char) : ∀ s ∈ pathOf cs, IsUnmarked s := by
  refine forall_mem_resolve isUnmarked_nil (by simp) fun s hs => ?_
  obtain ⟨t, -, rfl⟩ := List.mem_map.1 hs
  exact isUnmarked_encode t

lemma mem_of_mem_tidy {c : Char} (h : c ∈ tidy cs) : c ∈ cs := by
  have inner := List.mem_of_mem_filter h
  rw [List.mem_reverse] at inner
  exact (List.dropWhile_sublist _).subset
    (List.mem_reverse.1 ((List.dropWhile_sublist _).subset inner))

/-- An address without a question mark is read as one without a query. -/
lemma parse?_unmarked (h : Url.parse? text = some u) :
    (∀ s ∈ u.path, IsUnmarked s) ∧ ('?' ∉ text.toList → u.query = none) := by
  simp only [parse?, Option.bind_eq_bind, Option.bind_eq_some_iff] at h
  obtain ⟨scheme, -, authority, -, h⟩ := h
  generalize rest' : List.takeWhile (fun c => decide (c ≠ '#')) _ = rest at h
  have within : rest ⊆ tidy text.toList := by
    rw [← rest']
    exact (((((List.takeWhile_sublist _).trans (List.dropWhile_sublist _)).trans
      (List.dropWhile_sublist _)).trans (List.drop_sublist _ _)).trans
      (List.dropWhile_sublist _)).subset
  rw [Option.pure_def, Option.some.injEq] at h
  subst h
  refine ⟨isUnmarked_pathOf _, fun clear => ?_⟩
  have none' : rest.dropWhile (fun c => decide (c ≠ '?')) = [] := by
    refine List.dropWhile_eq_nil_iff.2 fun c hc => decide_eq_true ?_
    rintro rfl
    exact clear (mem_of_mem_tidy (within hc))
  simp only [none']

/-- The pairs are what is read from the query, and from the query of what the request line names. -/
structure Carries (u : Url) (pairs : List (String × String)) : Prop where
  query : u.query.map Form.decode = some pairs
  target : Form.decode (queryOf u.target.toList) = pairs

lemma pathText_unmarked (h : ∀ s ∈ u.path, IsUnmarked s) : IsUnmarked u.pathText := by
  intro c hc
  obtain ⟨s, hs, hc⟩ := List.mem_flatMap.1 hc
  rcases List.mem_cons.1 hc with rfl | hc
  · decide
  · exact h s hs c hc

/-- The query begins where the path ends. -/
lemma queryOf_append {path query : List Char} (hp : IsUnmarked path) (hq : '#' ∉ query) :
    queryOf (path ++ '?' :: query) = query := by
  have sign : ∀ c ∈ path ++ '?' :: query, decide (c ≠ '#') = true := by
    simp only [List.mem_append, List.mem_cons, decide_eq_true_eq]
    rintro c (hc | rfl | hc)
    · exact (hp c hc).2
    · decide
    · rintro rfl
      exact hq hc
  have question : ∀ c ∈ path, decide (c ≠ '?') = true := fun c hc => decide_eq_true (hp c hc).1
  rw [queryOf, List.takeWhile_eq_self_iff.2 sign, List.dropWhile_append_of_pos question,
    List.dropWhile_cons_of_neg (by decide), List.drop_one, List.tail_cons]

lemma withPairs_carries (path : ∀ s ∈ u.path, IsUnmarked s) (bare : u.query = none)
    {pairs : List (String × String)} (some' : pairs ≠ []) : Carries (u.withPairs pairs) pairs := by
  have query : (u.withPairs pairs).query = some (Form.encode pairs) := by
    simp only [withPairs, bare, if_neg (Form.encode_ne_nil some')]
  refine ⟨by rw [query, Option.map_some, Form.decode_encode], ?_⟩
  have target : (u.withPairs pairs).target.toList = u.pathText ++ '?' :: Form.encode pairs := by
    rw [Url.target, query, String.toList_ofList]
    rfl
  rw [target, queryOf_append (pathText_unmarked path)
    fun sign => (Form.not_mem_encode pairs '#' sign).2 rfl, Form.decode_encode]

end Http.Url

/-! ### Calls -/

/-- What a call names in the query of its request. -/
inductive Call.Names : Call → List (String × String) → Prop
  | removed (path account : String) :
    Names (.remove path (some account)) [("path", path), ("account", account)]
  | removedUnpaid (path : String) : Names (.remove path none) [("path", path)]
  | stated (path : String) : Names (.stat path) [("path", path)]
  | sent (file dir name : String) : Names (.uploadSmall file dir name) [("path", dir)]
  | fetched (path file : String) : Names (.downloadSmall path file) [("path", path)]

namespace Gateway

variable {g : Gateway} {call : Call} {content : Bytes} {pairs : List (String × String)}

lemma not_mem_address (base : '?' ∉ g.baseUrl.toList) {resource : List Char}
    (clear : '?' ∉ resource) : '?' ∉ (g.address (String.ofList resource)).toList := by
  intro mem
  simp only [address, String.toList_append, String.toList_ofList, List.mem_append,
    List.mem_reverse] at mem
  rcases mem with (mem | mem) | mem
  · exact base (List.mem_reverse.1 ((List.dropWhile_sublist _).subset mem))
  · exact absurd mem (by decide)
  · exact clear mem

/-- No call adds a query to the address that it names. -/
lemma not_mem_url (base : '?' ∉ g.baseUrl.toList) {area : String} {rest : List String}
    (endpoint : call.endpoint? = some (area, rest)) :
    '?' ∉ (g.demand content call).url.toList := by
  rw [url_demand endpoint]
  refine not_mem_address base fun mem => ?_
  exact Text.forall_mem_intercalate (p := (· ≠ '?')) (by decide)
    (fun s hs c hc => (clear_of_isSegmentChar (isSegmentChar_written endpoint s hs c hc)).2.1)
    '?' mem rfl

lemma query_demand (names : call.Names pairs) (content : Bytes) :
    (g.demand content call).query = some pairs ∧ pairs ≠ [] ∧
      ∃ area rest, call.endpoint? = some (area, rest) := by
  cases names <;> exact ⟨rfl, List.cons_ne_nil _ _, _, _, rfl⟩

lemma carries_of_request? (base : '?' ∉ g.baseUrl.toList) (names : call.Names pairs)
    {token : Option String} {q : Request}
    (sent : (g.demand content call).request? token = some q) : Carries q.url pairs := by
  obtain ⟨query, some', area, rest, endpoint⟩ := g.query_demand names content
  simp only [Demand.request?, Option.bind_eq_bind, Option.bind_eq_some_iff] at sent
  obtain ⟨u, read, sent⟩ := sent
  obtain ⟨path, bare⟩ := parse?_unmarked read
  split at sent
  · rw [query] at sent
    obtain rfl := Option.some.inj sent
    exact withPairs_carries path (bare (not_mem_url base endpoint)) some'
  · cases sent

end Gateway

/-! ### Sessions -/

namespace Client

variable {S : Type}

/-- Whatever is around a client, the requests that a call makes carry the parameters that the call
names, as they are, and no others. -/
theorem perform_carries (c : Client (StateM S)) (base : '?' ∉ c.gateway.baseUrl.toList) {call : Call}
    {pairs : List (String × String)} (names : call.Names pairs) (v : Session) (s : S) :
    ∀ q o, .exchanged q o ∈ (c.written.perform call v (s, [])).2.2 → Carries q.url pairs := by
  intro q o mem
  obtain ⟨D, written, performs⟩ := c.writes_perform v call s []
  rw [written, List.nil_append] at mem
  obtain ⟨content, token, -, sent⟩ := performs.atMostOne.only q (Diary.mem_requests.2 ⟨o, mem⟩)
  exact Gateway.carries_of_request? base names sent

/-- A client whose requests are all lost. -/
def unheard (g : Gateway) : Client (StateM Unit) where
  around :=
    { exchange  := fun _ => return .lost "gone"
      now       := return ⟨0⟩
      pause     := fun _ => pure ()
      cancelled := pure false
      size      := fun _ => pure (.error .earlyEnd)
      content   := fun _ => pure (.error .earlyEnd)
      write     := fun _ _ => pure (.error .earlyEnd)
      prefer    := pure 0
      listen    := fun _ => pure ()
      enter     := fun _ => pure () }
  gateway := g
  source  := return .ok ⟨"t", ⟨0⟩⟩

/-- The removal of a path that looks like more than one parameter. -/
theorem perform_carries_removal :
    let g : Gateway := ⟨"http://gateway/api/", "cluster", 0⟩
    let call : Call := .remove "/a&account=root#x %+=é" (some "b&c")
    let D := ((unheard g).written.perform call .start ((), [])).2.2
    '?' ∉ g.baseUrl.toList ∧
      D.filterMap (fun | .exchanged q _ => some q.url.target | _ => none) =
        ["/api/filesystem/cluster/transfer/rm" ++
          "?path=%2Fa%26account%3Droot%23x+%25%2B%3D%C3%A9&account=b%26c"] ∧
      ∀ q o, .exchanged q o ∈ D →
        Carries q.url [("path", "/a&account=root#x %+=é"), ("account", "b&c")] := by
  intro g call D
  have base : '?' ∉ (unheard g).gateway.baseUrl.toList := by decide
  have names : call.Names [("path", "/a&account=root#x %+=é"), ("account", "b&c")] := .removed ..
  exact ⟨base, by decide +kernel, (unheard g).perform_carries base names .start ()⟩

end Client

end StagedTransfer
