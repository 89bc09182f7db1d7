import StagedTransfer.Gateway.Demand
import StagedTransfer.Proofs.Http.Reading

/-!
# Addresses at the gateway

Below the address of the gateway each endpoint has an address with the name of the cluster as one of
its segments. Whatever the name is made of, it is spelled so that it stays this one segment, and no
two names are spelled alike. Two names are left out of that: a segment `.` or `..` is resolved, and
the request goes to an address that is one or two segments shorter.
-/

namespace StagedTransfer

open Http Url

/-! ### Endpoints -/

/-- The area of the gateway in which the endpoint of a call lies, and what its address says after
the name of the cluster. -/
def Call.endpoint? : Call → Option (String × List String)
  | .uploadPlan _                 => some ("filesystem", ["transfer", "upload"])
  | .downloadPlan _               => some ("filesystem", ["transfer", "download"])
  | .job jobId | .cancelJob jobId => some ("compute", ["jobs", toString jobId.toInt])
  | .copy _                       => some ("filesystem", ["transfer", "cp"])
  | .move _                       => some ("filesystem", ["transfer", "mv"])
  | .remove _ _                   => some ("filesystem", ["transfer", "rm"])
  | .compress _                   => some ("filesystem", ["transfer", "compress"])
  | .extract _                    => some ("filesystem", ["transfer", "extract"])
  | .stat _                       => some ("filesystem", ["ops", "stat"])
  | .uploadSmall _ _ _            => some ("filesystem", ["ops", "upload"])
  | .downloadSmall _ _            => some ("filesystem", ["ops", "download"])
  | .complete _ _ | .fetch _ _    => none

variable {g g' : Gateway} {call : Call} {content : Bytes} {area : String} {rest : List String}
  {scheme : Scheme} {host : List Char} {socket : Nat}

/-! ### Characters of segments -/

lemma lt_of_isPlain {c : Char} (h : Percent.isPlain c = true) : c.toNat < 0x80 := by
  have below (last : Char) (hl : last.toNat < 0x80) (hc : c.val ≤ last.val) : c.toNat < 0x80 :=
    Nat.lt_of_le_of_lt (UInt32.le_iff_toNat_le.1 hc) hl
  simp only [Percent.isPlain, Bool.or_eq_true, beq_iff_eq] at h
  rcases h with ((h | rfl) | rfl) | rfl
  · rcases Bool.or_eq_true_iff.1 (h : (c.isAlpha || c.isDigit) = true) with letter | digit
    · rcases Bool.or_eq_true_iff.1 (letter : (c.isUpper || c.isLower) = true) with upper | lower
      · exact below 'Z' (by decide) (of_decide_eq_true upper).2
      · exact below 'z' (by decide) (of_decide_eq_true (Bool.and_eq_true_iff.1 lower).2)
    · exact below '9' (by decide) (Char.isDigit_iff_toNat.1 digit).2
  · decide
  · decide
  · decide

lemma isSegmentChar_of_isPlain {c : Char} (h : Percent.isPlain c = true) :
    isSegmentChar c = true := by
  have all : ∀ n < 0x80, Percent.isPlain (Char.ofNat n) = true →
      isSegmentChar (Char.ofNat n) = true := by
    decide
  have plain := all c.toNat (lt_of_isPlain h)
  rw [Char.ofNat_toNat] at plain
  exact plain h

/-- A character of a segment begins no query and is no blank. -/
lemma clear_of_isSegmentChar {c : Char} (h : isSegmentChar c = true) :
    0x20 < c.toNat ∧ c ≠ '?' ∧ c ≠ '#' := by
  obtain ⟨path, -⟩ := isSegmentChar_iff.1 h
  refine ⟨?_, ?_, ?_⟩
  · simp only [isPathChar, isForeign, Bool.not_eq_true', Bool.or_eq_false_iff,
      decide_eq_false_iff_not] at path
    omega
  · rintro rfl
    exact absurd path (by decide)
  · rintro rfl
    exact absurd path (by decide)

/-- A segment that is made of characters of segments and stays where it is. -/
def IsPlainSegment (s : String) : Prop :=
  s.toList.all isSegmentChar = true ∧ Stays s.toList

instance (s : String) : Decidable (IsPlainSegment s) :=
  inferInstanceAs (Decidable (_ ∧ _))

lemma mem_toString {n : Int} {c : Char} (h : c ∈ (toString n).toList) :
    '0' ≤ c ∧ c ≤ '9' ∨ c = '-' := by
  have digit {m : Nat} (hm : c ∈ m.repr.toList) : '0' ≤ c ∧ c ≤ '9' := by
    rw [Nat.repr_eq_ofList_toDigits, String.toList_ofList] at hm
    have digit := Nat.isDigit_of_mem_toDigits (by decide) (by decide) hm
    exact Char.isDigit_iff_toNat.1 digit
  cases n with
  | ofNat m => exact .inl (digit h)
  | negSucc m =>
    have h : c ∈ ("-" ++ m.succ.repr).toList := h
    rw [String.toList_append, List.mem_append] at h
    rcases h with sign | h
    · exact .inr (List.mem_singleton.1 sign)
    · exact .inl (digit h)

lemma isSegmentChar_digit {c : Char} (h : '0' ≤ c ∧ c ≤ '9') : isSegmentChar c = true := by
  have all : ∀ n < 58, 48 ≤ n → isSegmentChar (Char.ofNat n) = true := by decide
  have digit := all c.toNat (Nat.lt_succ_of_le h.2) h.1
  rwa [Char.ofNat_toNat] at digit

lemma isPlainSegment_toString (n : Int) : IsPlainSegment (toString n) := by
  refine ⟨List.all_eq_true.2 fun c hc => ?_, stays_of_not_mem (fun h => ?_) fun h => ?_⟩
  · rcases mem_toString hc with digit | rfl
    · exact isSegmentChar_digit digit
    · decide
  · exact absurd (mem_toString h) (by decide)
  · exact absurd (mem_toString h) (by decide)

lemma Call.length_endpoint? (h : call.endpoint? = some (area, rest)) : rest.length = 2 := by
  cases call <;> cases h <;> rfl

lemma Call.isPlainSegment_endpoint? (h : call.endpoint? = some (area, rest)) :
    IsPlainSegment area ∧ ∀ s ∈ rest, IsPlainSegment s := by
  cases call with
  | job jobId | cancelJob jobId =>
    cases h
    refine ⟨by decide, fun s hs => ?_⟩
    simp only [List.mem_cons, List.not_mem_nil, or_false] at hs
    rcases hs with rfl | rfl
    · decide
    · exact isPlainSegment_toString _
  | complete | fetch => cases h
  | _ =>
    cases h
    decide

/-! ### Addresses -/

namespace Gateway

lemma toList_segment (g : Gateway) :
    g.segment.toList = Percent.encode Percent.isPlain g.system.toList :=
  String.toList_ofList

/-- The segments of an endpoint, before any of them is resolved. -/
def written (g : Gateway) (area : String) (rest : List String) : List (List Char) :=
  area.toList :: g.segment.toList :: rest.map String.toList

lemma joined_eq (g : Gateway) {start inner area between : String}
    (hs : start.toList = area.toList ++ ['/'])
    (hi : inner.toList = '/' :: (between.toList ++ ['/'])) (last : String) :
    start ++ g.segment ++ inner ++ last =
      String.ofList (['/'].intercalate (g.written area [between, last])) := by
  rw [← String.toList_inj]
  simp [written, List.intercalate_cons_cons, hs, hi]

/-- The address of an endpoint is put together from its segments. -/
lemma url_demand (endpoint : call.endpoint? = some (area, rest)) :
    (g.demand content call).url =
      g.address (String.ofList (['/'].intercalate (g.written area rest))) := by
  cases call with
  | complete | fetch => cases endpoint
  | _ =>
    cases endpoint
    exact congrArg g.address (g.joined_eq (by decide) (by decide) _)

/-- The address of the gateway without the slashes that follow it. -/
lemma address_eq (base : List Char) {c : Char} (hc : c ≠ '/') (slashes : Nat)
    (located : g.baseUrl = String.ofList (base ++ [c] ++ List.replicate slashes '/'))
    (resource : String) :
    g.address resource = String.ofList (base ++ [c] ++ '/' :: resource.toList) := by
  have slash : ∀ d ∈ List.replicate slashes '/', decide (d = '/') = true := fun d hd =>
    decide_eq_true (List.eq_of_mem_replicate hd)
  rw [address, located, String.toList_ofList, List.reverse_append, List.reverse_replicate,
    List.dropWhile_append_of_pos slash, List.reverse_append, List.reverse_singleton,
    List.singleton_append, List.dropWhile_cons_of_neg (by simpa using hc), ← String.toList_inj]
  simp

lemma parse?_address (root : IsRoot g.baseUrl scheme host socket) {resource : List Char}
    (clear : ∀ c ∈ resource, 0x20 < c.toNat ∧ c ≠ '?' ∧ c ≠ '#') :
    Url.parse? (g.address (String.ofList resource)) =
      some ⟨scheme, host, socket, pathOf resource, none⟩ := by
  generalize base : g.baseUrl = text at root
  cases root with
  | @intro name authority _ _ _ slashes named located plain =>
    rcases List.eq_nil_or_concat authority with none' | ⟨front, c, rfl⟩
    · exact absurd none' (ne_nil_of_authority? located)
    have last : c ≠ '/' := by
      rintro rfl
      exact absurd (plain '/' (by simp)) (by decide)
    have stripped := g.address_eq (name ++ ':' :: '/' :: '/' :: front) last slashes
      (by rw [base]; simp) (String.ofList resource)
    rw [stripped, ← parse?_append named located plain clear]
    simp

/-- What becomes of the segments of an endpoint. -/
lemma resolve_written (endpoint : call.endpoint? = some (area, rest)) :
    resolve [] (g.written area rest) =
      if g.system = "." then area.toList :: rest.map String.toList
      else if g.system = ".." then rest.map String.toList
      else g.written area rest := by
  obtain ⟨⟨-, first⟩, others⟩ := Call.isPlainSegment_endpoint? endpoint
  have two := Call.length_endpoint? endpoint
  have some' : rest.map String.toList ≠ [] := by
    rintro none'
    rw [List.map_eq_nil_iff.1 none'] at two
    cases two
  have stays : ∀ s ∈ rest.map String.toList, Stays s := fun s hs => by
    obtain ⟨t, ht, rfl⟩ := List.mem_map.1 hs
    exact (others t ht).2
  rw [written, resolve_cons (List.cons_ne_nil _ _), first.1, first.2, if_neg Bool.false_ne_true,
    if_neg Bool.false_ne_true, resolve_cons some', toList_segment]
  by_cases above : g.system = ".."
  · rw [if_pos ((isAbove_encode _).2 above), if_neg (by rw [above]; decide), if_pos above]
    exact resolve_of_stays stays
  · rw [if_neg fun h => above ((isAbove_encode _).1 h)]
    by_cases here : g.system = "."
    · rw [if_pos ((isHere_encode _).2 here), if_pos here]
      exact resolve_of_stays stays
    · rw [if_neg fun h => here ((isHere_encode _).1 h), if_neg here, if_neg above,
        resolve_of_stays stays]
      rfl

lemma isSegmentChar_written (endpoint : call.endpoint? = some (area, rest)) :
    ∀ s ∈ g.written area rest, ∀ c ∈ s, isSegmentChar c = true := by
  obtain ⟨first, others⟩ := Call.isPlainSegment_endpoint? endpoint
  simp only [written, List.mem_cons, List.mem_map]
  rintro s (rfl | rfl | ⟨t, ht, rfl⟩)
  · exact List.all_eq_true.1 first.1
  · rw [toList_segment]
    exact Percent.forall_mem_encode (fun c => isSegmentChar_of_isPlain) (by decide) (by decide)
  · exact List.all_eq_true.1 (others t ht).1

/-- Where the address of an endpoint leads. -/
lemma parse?_demand (root : IsRoot g.baseUrl scheme host socket)
    (endpoint : call.endpoint? = some (area, rest)) :
    Url.parse? (g.demand content call).url =
      some ⟨scheme, host, socket, resolve [] (g.written area rest), none⟩ := by
  have plain := isSegmentChar_written (g := g) endpoint
  have clear : ∀ c ∈ ['/'].intercalate (g.written area rest),
      0x20 < c.toNat ∧ c ≠ '?' ∧ c ≠ '#' :=
    Text.forall_mem_intercalate (by decide) fun s hs c hc =>
      clear_of_isSegmentChar (plain s hs c hc)
  have some' : g.written area rest ≠ [] := List.cons_ne_nil _ _
  rw [url_demand endpoint, parse?_address root clear, pathOf_intercalate some' plain]

/-- The number of segments tells whether the name is one that is resolved. -/
lemma length_resolve_written (endpoint : call.endpoint? = some (area, rest)) :
    g.system = "." ∧ (resolve [] (g.written area rest)).length = 3 ∨
      g.system = ".." ∧ (resolve [] (g.written area rest)).length = 2 ∨
      resolve [] (g.written area rest) = g.written area rest ∧
        (resolve [] (g.written area rest)).length = 4 := by
  have two := Call.length_endpoint? endpoint
  rw [resolve_written endpoint]
  by_cases here : g.system = "."
  · exact .inl ⟨here, by simp [here, two]⟩
  by_cases above : g.system = ".."
  · exact .inr (.inl ⟨above, by simp [above, two]⟩)
  · rw [if_neg here, if_neg above]
    exact .inr (.inr ⟨rfl, by simp [written, two]⟩)

/-- Two names never lead to one path. -/
lemma system_eq_of_resolve {call' : Call} {area' : String} {rest' : List String}
    (endpoint : call.endpoint? = some (area, rest))
    (endpoint' : call'.endpoint? = some (area', rest'))
    (same : resolve [] (g.written area rest) = resolve [] (g'.written area' rest')) :
    g.system = g'.system := by
  have first := length_resolve_written (g := g) endpoint
  have second := length_resolve_written (g := g') endpoint'
  rw [same] at first
  -- Names of different kinds lead to paths of different lengths.
  rcases first with ⟨name, length⟩ | ⟨name, length⟩ | ⟨path, length⟩ <;>
  rcases second with ⟨name', length'⟩ | ⟨name', length'⟩ | ⟨path', length'⟩ <;>
  try omega
  · rw [name, name']
  · rw [name, name']
  · obtain ⟨-, others⟩ := List.cons_eq_cons.1 (path.symm.trans path')
    obtain ⟨segment, -⟩ := List.cons_eq_cons.1 others
    rw [toList_segment, toList_segment] at segment
    exact Percent.encode_injective (by decide) segment

/-- What the address of an endpoint leads to, and a request for it. -/
structure Reaches (g : Gateway) (d : Demand) (scheme : Scheme) (host : List Char) (socket : Nat)
    (area : String) (rest : List String) : Prop where
  /-- The segment of the name spells the name. -/
  spelled : Utf8.decode? (Percent.decode g.segment.toList) = some g.system
  placed  : g.system ≠ "." → g.system ≠ ".." → Url.parse? d.url =
    some ⟨scheme, host, socket, area.toList :: g.segment.toList :: rest.map String.toList, none⟩
  /-- The name means the place where it stands. -/
  here    : g.system = "." →
    Url.parse? d.url = some ⟨scheme, host, socket, area.toList :: rest.map String.toList, none⟩
  /-- The name means the place above, and there is none above that. -/
  above   : g.system = ".." →
    Url.parse? d.url = some ⟨scheme, host, socket, rest.map String.toList, none⟩
  /-- A request is made to that address, and nothing but pairs is added to it. -/
  sent    : ∀ token r, d.request? token = some r →
    ∃ u query, Url.parse? d.url = some u ∧ r.url = { u with query }

lemma url_of_request? {d : Demand} {token : Option String} {r : Request}
    (h : d.request? token = some r) :
    ∃ u query, Url.parse? d.url = some u ∧ r.url = { u with query } := by
  simp only [Demand.request?, Option.bind_eq_bind, Option.bind_eq_some_iff] at h
  obtain ⟨u, read, h⟩ := h
  split at h
  · obtain rfl := Option.some.inj h
    cases d.query with
    | none => exact ⟨u, u.query, read, rfl⟩
    | some pairs => exact ⟨u, _, read, rfl⟩
  · cases h

/-- The address of an endpoint has the name of the cluster for its second segment, whatever the name
is, unless that is `.` or `..`, and no two names lead to one address. -/
theorem demand_reaches (root : IsRoot g.baseUrl scheme host socket) (content : Bytes)
    (endpoint : call.endpoint? = some (area, rest)) :
    g.Reaches (g.demand content call) scheme host socket area rest ∧
      ∀ (g' : Gateway) (content' : Bytes) (call' : Call),
        (∃ scheme' host' socket', IsRoot g'.baseUrl scheme' host' socket') →
        call'.endpoint?.isSome →
        Url.parse? (g'.demand content' call').url = Url.parse? (g.demand content call).url →
          g'.system = g.system := by
  have address : Url.parse? (g.demand content call).url =
      some ⟨scheme, host, socket, resolve [] (g.written area rest), none⟩ :=
    parse?_demand root endpoint
  have path := resolve_written (g := g) endpoint
  constructor
  · constructor
    case spelled =>
      rw [toList_segment]
      exact Percent.decode?_decode_encode (by decide) g.system
    case placed =>
      intro here above
      rw [address, path, if_neg here, if_neg above, written]
    case here =>
      intro here
      rw [address, path, if_pos here]
    case above =>
      intro above
      rw [address, path, if_neg (by rw [above]; decide), if_pos above]
    case sent => exact fun _ _ => url_of_request?
  · rintro g' content' call' ⟨scheme', host', socket', root'⟩ some' same
    obtain ⟨⟨area', rest'⟩, endpoint'⟩ := Option.isSome_iff_exists.1 some'
    rw [parse?_demand root' endpoint', address] at same
    simp only [Option.some.injEq, Url.mk.injEq] at same
    exact system_eq_of_resolve endpoint' endpoint same.2.2.2.1

/-- A job on a cluster with slashes and blanks in its name, and one on a cluster `..`. -/
theorem demand_reaches_job :
    let g (system : String) : Gateway := ⟨"http://gateway:8000//", system, 0⟩
    Url.parse? ((g "a/b é").demand [] (.job 7)).url =
        some ⟨.http, "gateway".toList, 8000,
          ["compute".toList, "a%2Fb%20%C3%A9".toList, "jobs".toList, "7".toList], none⟩ ∧
      Url.parse? ((g "..").demand [] (.job 7)).url =
        some ⟨.http, "gateway".toList, 8000, ["jobs".toList, "7".toList], none⟩ := by
  intro g
  have root system : IsRoot (g system).baseUrl .http "gateway".toList 8000 := by
    have base : "http://gateway:8000//" = String.ofList ("http".toList ++ ':' :: '/' :: '/' ::
        ("gateway:8000".toList ++ List.replicate 2 '/')) := by decide +kernel
    rw [show (g system).baseUrl = "http://gateway:8000//" from rfl, base]
    exact .intro 2 (by decide +kernel) (by decide +kernel)
      (List.all_eq_true.1 (by decide +kernel))
  have endpoint : (Call.job 7).endpoint? = some ("compute", ["jobs", "7"]) := rfl
  constructor
  · have placed := (demand_reaches (root "a/b é") [] endpoint).1.placed (by decide) (by decide)
    have segment : (g "a/b é").segment.toList = "a%2Fb%20%C3%A9".toList := by decide +kernel
    rw [segment] at placed
    exact placed
  · exact (demand_reaches (root "..") [] endpoint).1.above rfl

end Gateway

end StagedTransfer
