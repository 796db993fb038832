import Mathlib.Data.List.Find
import Mathlib.Data.List.Induction
import Missive.Object.Dictionary
import Missive.Proofs.Object.Equality
import Missive.Proofs.Protocol.Arithmetic

/-!
# Dictionaries are ordered maps

A dictionary is searched by comparing its keys with the given one from the front.  As long as
equality is an equivalence on the keys that are used, and stays the same one, no two entries ever
have equal keys, and what is found under a key depends only on the requests with an equal key: it is
what was last inserted, unless it has been removed since.  The entries stand in the order in which
their keys came in, a replaced value in its old place and under its old key.
-/

namespace Missive

theorem Store.builtinResponse?_dictionary {store : Store} {id : ObjectId}
    {entries : List (Value × Value)} (stored : store.get? id = some (.dictionary entries))
    (selector : Selector) :
    store.builtinResponse? (.ref id) selector =
      (DictionaryMessage.ofSelector? selector).map (·.perform id entries) := by
  have seen : store.see (.ref id) = .dictionary id entries := by
    simp only [Store.see, stored]
  unfold Store.builtinResponse?
  rw [seen]

namespace Entries

/-! ## Requests -/

/-- A request to a dictionary. -/
inductive Request where
  | insert (key value : Value)
  | remove (key : Value)
  | get (key : Value)
  | contains (key : Value)

/-- The key that a request is about. -/
def Request.key : Request → Value
  | insert key _ | remove key | get key | contains key => key

/-- The entries after a request. -/
def serve (store : Store) (held : Option ObjectId) (entries : List (Value × Value)) :
    Request → Except Crash (List (Value × Value))
  | .insert key value => insert store held entries key value
  | .remove key => remove store held entries key
  | .get key | .contains key => do
    let _ ← get? store none entries key
    return entries

/-- The entries of a dictionary that was empty at first, after requests that were each made in a
store of its own. -/
def after (history : List (Store × Request)) : Except Crash (List (Value × Value)) :=
  history.foldlM (fun entries step => serve step.1 none entries step.2) []

theorem after_append_singleton (history : List (Store × Request)) (step : Store × Request) :
    after (history ++ [step]) =
      after history >>= fun entries => serve step.1 none entries step.2 := by
  unfold after
  rw [List.foldlM_append]
  refine bind_congr fun entries => ?_
  rw [List.foldlM_cons]
  exact bind_pure _

/-- A dictionary made of pairs is one into which they have been inserted. -/
theorem ofPairs_eq_after (store : Store) (pairs : List (Value × Value)) :
    ofPairs store pairs = after (pairs.map fun pair => (store, .insert pair.1 pair.2)) := by
  unfold ofPairs after
  rw [List.foldlM_map]
  rfl

/-! ## What the requests so far amount to -/

section Meaning

variable (same : Value → Value → Bool)

/-- What a request makes of the value of a key: a new value, none any more, or what it was. -/
def Request.assigns (key : Value) : Request → Option (Option Value)
  | insert inserted value => if same inserted key then some (some value) else none
  | remove removed => if same removed key then some none else none
  | get _ | contains _ => none

/-- The value that was last inserted under a key, unless that key has been removed since. -/
def lastValue (requests : List Request) (key : Value) : Option Value :=
  (requests.reverse.findSome? (Request.assigns same key)).join

/-- The key that a request inserts, if there is no equal one. -/
def Request.newKey? (earlier : List Request) : Request → Option Value
  | insert key _ => if (lastValue same earlier key).isNone then some key else none
  | remove _ | get _ | contains _ => none

/-- The request removes the entry of a key. -/
def Request.removes (key : Value) : Request → Bool
  | remove removed => same key removed
  | insert .. | get _ | contains _ => false

/-- The key that the request at a place has brought in, if none of the later ones has removed it. -/
def broughtIn? (requests : List Request) (place : Nat) : Option Value :=
  (requests[place]?.bind (Request.newKey? same (requests.take place))).filter fun key =>
    !(requests.drop (place + 1)).any (Request.removes same key)

/-- The keys that are there, in the order in which they were first inserted. -/
def firstInserted (requests : List Request) : List Value :=
  (List.range requests.length).filterMap (broughtIn? same requests)

variable {same} (requests : List Request) (request : Request)

theorem lastValue_append_singleton (key : Value) :
    lastValue same (requests ++ [request]) key =
      (request.assigns same key).getD (lastValue same requests key) := by
  unfold lastValue
  rw [List.reverse_append, List.reverse_singleton, List.findSome?_append, List.findSome?_singleton]
  cases request.assigns same key with
  | none | some _ =>
      rfl

theorem broughtIn?_append_of_lt {place : Nat} (inside : place < requests.length) :
    broughtIn? same (requests ++ [request]) place =
      (broughtIn? same requests place).filter fun key => !request.removes same key := by
  unfold broughtIn?
  rw [List.getElem?_append_left inside, List.take_append_of_le_length inside.le,
    List.drop_append_of_le_length inside, Option.filter_filter]
  simp only [List.any_append, List.any_cons, List.any_nil, Bool.or_false, Bool.not_or]

theorem broughtIn?_append_length :
    broughtIn? same (requests ++ [request]) requests.length = request.newKey? same requests := by
  unfold broughtIn?
  have noneLater : (requests ++ [request]).drop (requests.length + 1) = [] := by simp
  rw [noneLater, List.getElem?_concat_length, List.take_left]
  cases found : request.newKey? same requests with
  | none | some _ =>
      simp [found]

/-- A request removes keys from the order and puts a new one at the end. -/
theorem firstInserted_append_singleton :
    firstInserted same (requests ++ [request]) =
      ((firstInserted same requests).filter fun key => !request.removes same key) ++
        (request.newKey? same requests).toList := by
  unfold firstInserted
  rw [List.length_append, List.length_singleton, List.range_succ, List.filterMap_append,
    List.filter_filterMap]
  congr 1
  · apply List.filterMap_congr
    intro place inside
    exact broughtIn?_append_of_lt requests request (List.mem_range.mp inside)
  · rw [List.filterMap_cons, broughtIn?_append_length]
    cases request.newKey? same requests with
    | none | some _ =>
        rfl

end Meaning

/-! ## Searching from the front -/

section Search

variable (equal : Value → Value → Bool) (entry : Value × Value)
  (entries : List (Value × Value)) (key value : Value)

/-- The value of the first entry with an equal key. -/
def lookup : Option Value := (entries.find? fun entry => equal entry.1 key).map Prod.snd

/-- The entries with a value under a key: in the place of an equal key, or else at the end. -/
def inserted : List (Value × Value) :=
  match entries.findIdx? fun entry => equal entry.1 key with
  | some index => entries.modify index fun entry => (entry.1, value)
  | none => entries ++ [(key, value)]

/-- The entries without the first one that has an equal key. -/
def removed : List (Value × Value) :=
  match entries.findIdx? fun entry => equal entry.1 key with
  | some index => entries.eraseIdx index
  | none => entries

theorem lookup_cons :
    lookup equal (entry :: entries) key =
      if equal entry.1 key then some entry.2 else lookup equal entries key := by
  unfold lookup
  rw [List.find?_cons]
  cases equal entry.1 key with
  | false | true =>
      rfl

theorem inserted_cons :
    inserted equal (entry :: entries) key value =
      if equal entry.1 key then (entry.1, value) :: entries
      else entry :: inserted equal entries key value := by
  unfold inserted
  rw [List.findIdx?_cons]
  by_cases same : equal entry.1 key = true
  · rw [if_pos same, if_pos same]
    rfl
  · rw [if_neg same, if_neg same]
    cases entries.findIdx? fun entry => equal entry.1 key with
    | none | some _ =>
        rfl

theorem removed_cons :
    removed equal (entry :: entries) key =
      if equal entry.1 key then entries else entry :: removed equal entries key := by
  unfold removed
  rw [List.findIdx?_cons]
  by_cases same : equal entry.1 key = true
  · rw [if_pos same, if_pos same]
    rfl
  · rw [if_neg same, if_neg same]
    cases entries.findIdx? fun entry => equal entry.1 key with
    | none | some _ =>
        rfl

variable {equal entries key}

theorem lookup_eq_none_iff :
    lookup equal entries key = none ↔ ∀ entry ∈ entries, ¬ equal entry.1 key = true := by
  unfold lookup
  rw [Option.map_eq_none_iff, List.find?_eq_none]

/-- A new key comes last, with its value. -/
theorem inserted_of_lookup_eq_none (absent : lookup equal entries key = none) :
    inserted equal entries key value = entries ++ [(key, value)] := by
  induction entries with
  | nil =>
      rfl
  | cons entry rest inductionHypothesis =>
      rw [lookup_eq_none_iff, List.forall_mem_cons, ← lookup_eq_none_iff] at absent
      rw [inserted_cons, if_neg absent.1, inductionHypothesis absent.2, List.cons_append]

theorem removed_of_lookup_eq_none (absent : lookup equal entries key = none) :
    removed equal entries key = entries := by
  induction entries with
  | nil =>
      rfl
  | cons entry rest inductionHypothesis =>
      rw [lookup_eq_none_iff, List.forall_mem_cons, ← lookup_eq_none_iff] at absent
      rw [removed_cons, if_neg absent.1, inductionHypothesis absent.2]

theorem map_fst_inserted :
    (inserted equal entries key value).map Prod.fst =
      entries.map Prod.fst ++
        (if (lookup equal entries key).isNone then some key else none).toList := by
  induction entries with
  | nil =>
      rfl
  | cons entry rest inductionHypothesis =>
      rw [inserted_cons, lookup_cons]
      split
      · simp
      · rw [List.map_cons, inductionHypothesis, List.map_cons, List.cons_append]

end Search

/-! ## Keys on which equality is an equivalence -/

/-- Listed keys of the given kind, of which no two are equal. -/
structure Distinct (keys : Value → Prop) (equal : Value → Value → Bool)
    (listed : List Value) : Prop where
  known : ∀ key ∈ listed, keys key
  unequal : listed.Pairwise fun a b => ¬ equal a b = true

section Laws

variable {keys : Value → Prop} {equal : Value → Value → Bool}
  {entries : List (Value × Value)} {key other : Value}

theorem Distinct.tail {entry : Value × Value}
    (distinct : Distinct keys equal ((entry :: entries).map Prod.fst)) :
    Distinct keys equal (entries.map Prod.fst) where
  known := fun key member => distinct.known key (List.mem_cons_of_mem entry.1 member)
  unequal := (List.pairwise_cons.mp distinct.unequal).2

theorem Distinct.known_of_mem {entry : Value × Value}
    (distinct : Distinct keys equal (entries.map Prod.fst)) (member : entry ∈ entries) :
    keys entry.1 :=
  distinct.known entry.1 (List.mem_map_of_mem member)

theorem Distinct.filter {listed : List Value} (distinct : Distinct keys equal listed)
    (keep : Value → Bool) : Distinct keys equal (listed.filter keep) where
  known := fun key member => distinct.known key (List.mem_filter.mp member).1
  unequal := distinct.unequal.filter keep

theorem Distinct.append_singleton (distinct : Distinct keys equal (entries.map Prod.fst))
    (inKey : keys key) (absent : ∀ entry ∈ entries, ¬ equal entry.1 key = true) :
    Distinct keys equal (entries.map Prod.fst ++ [key]) where
  known := by
    intro other member
    rcases List.mem_append.mp member with listed | isKey
    · exact distinct.known other listed
    · exact List.mem_singleton.mp isKey ▸ inKey
  unequal := by
    refine List.pairwise_append.mpr ⟨distinct.unequal, List.pairwise_singleton _ _, ?_⟩
    intro other listed last isKey
    obtain ⟨entry, member, rfl⟩ := List.mem_map.mp listed
    exact List.mem_singleton.mp isKey ▸ absent entry member

variable (equivalence : Equivalence fun a b : { key // keys key } => equal a.1 b.1 = true)

include equivalence

theorem equals_of_common {a b : Value} (inA : keys a) (inB : keys b) (inKey : keys key)
    (sameA : equal a key = true) (sameB : equal b key = true) :
    equal a b = true :=
  equivalence.trans (x := ⟨a, inA⟩) (y := ⟨key, inKey⟩) (z := ⟨b, inB⟩) sameA
    (equivalence.symm (x := ⟨b, inB⟩) (y := ⟨key, inKey⟩) sameB)

theorem equals_left_congr {a : Value} (inA : keys a) (inKey : keys key) (inOther : keys other)
    (same : equal a key = true) : equal a other = equal key other := by
  have symm : equal key a = true :=
    equivalence.symm (x := ⟨a, inA⟩) (y := ⟨key, inKey⟩) same
  rw [Bool.eq_iff_iff]
  constructor
  · exact equivalence.trans (x := ⟨key, inKey⟩) (y := ⟨a, inA⟩) (z := ⟨other, inOther⟩) symm
  · exact equivalence.trans (x := ⟨a, inA⟩) (y := ⟨key, inKey⟩) (z := ⟨other, inOther⟩) same

/-- Of entries with unequal keys only one can have a given key. -/
theorem not_equals_of_distinct {entry : Value × Value}
    (distinct : Distinct keys equal ((entry :: entries).map Prod.fst)) (inKey : keys key)
    (same : equal entry.1 key = true) :
    ∀ other ∈ entries, ¬ equal other.1 key = true := by
  intro other member sameOther
  have unequal := (List.pairwise_cons.mp distinct.unequal).1 other.1 (List.mem_map_of_mem member)
  exact unequal (equals_of_common equivalence (distinct.known_of_mem List.mem_cons_self)
    (distinct.tail.known_of_mem member) inKey same sameOther)

/-- A removal takes away what has the given key and leaves everything else as it is. -/
theorem removed_eq_filter (distinct : Distinct keys equal (entries.map Prod.fst))
    (inKey : keys key) :
    removed equal entries key = entries.filter fun entry => !equal entry.1 key := by
  induction entries with
  | nil =>
      rfl
  | cons entry rest inductionHypothesis =>
      rw [removed_cons, List.filter_cons]
      by_cases same : equal entry.1 key = true
      · have others := not_equals_of_distinct equivalence distinct inKey same
        simp only [same, if_true, Bool.not_true, Bool.false_eq_true, if_false]
        refine (List.filter_eq_self.mpr fun other member => ?_).symm
        simp [others other member]
      · simp only [same, Bool.false_eq_true, if_false, Bool.not_false, if_true]
        rw [inductionHypothesis distinct.tail]

/-- An insertion under a key that is there changes one value and nothing else. -/
theorem inserted_eq_map (distinct : Distinct keys equal (entries.map Prod.fst)) (inKey : keys key)
    (present : (lookup equal entries key).isSome = true) (value : Value) :
    inserted equal entries key value =
      entries.map fun entry => if equal entry.1 key then (entry.1, value) else entry := by
  induction entries with
  | nil =>
      cases present
  | cons entry rest inductionHypothesis =>
      rw [inserted_cons, List.map_cons]
      rw [lookup_cons] at present
      by_cases same : equal entry.1 key = true
      · have others := not_equals_of_distinct equivalence distinct inKey same
        have unchanged : ∀ other ∈ rest,
            (if equal other.1 key = true then (other.1, value) else other) = other :=
          fun other member => if_neg (others other member)
        rw [if_pos same, if_pos same, List.map_congr_left unchanged, List.map_id']
      · rw [if_neg same] at present ⊢
        rw [if_neg same, inductionHypothesis distinct.tail present]

theorem lookup_inserted (distinct : Distinct keys equal (entries.map Prod.fst)) (inKey : keys key)
    (inOther : keys other) (value : Value) :
    lookup equal (inserted equal entries key value) other =
      if equal key other then some value else lookup equal entries other := by
  induction entries with
  | nil =>
      exact lookup_cons equal (key, value) [] other
  | cons entry rest inductionHypothesis =>
      have inEntry := distinct.known_of_mem List.mem_cons_self
      rw [inserted_cons, lookup_cons]
      by_cases same : equal entry.1 key = true
      · rw [if_pos same, lookup_cons, equals_left_congr equivalence inEntry inKey inOther same]
        split <;> rfl
      · rw [if_neg same, lookup_cons, inductionHypothesis distinct.tail]
        -- An entry found under the other key is not replaced: the two keys are unequal then.
        by_cases sameOther : equal entry.1 other = true
        · have differ : ¬ equal key other = true := fun sameKey =>
            same (equals_of_common equivalence inEntry inKey inOther sameOther sameKey)
          rw [if_pos sameOther, if_pos sameOther, if_neg differ]
        · rw [if_neg sameOther, if_neg sameOther]

theorem lookup_removed (distinct : Distinct keys equal (entries.map Prod.fst)) (inKey : keys key)
    (inOther : keys other) :
    lookup equal (removed equal entries key) other =
      if equal key other then none else lookup equal entries other := by
  rw [removed_eq_filter equivalence distinct inKey]
  by_cases same : equal key other = true
  · rw [if_pos same, lookup_eq_none_iff]
    intro entry member sameOther
    obtain ⟨isEntry, differs⟩ := List.mem_filter.mp member
    have sameKey := equals_of_common equivalence (distinct.known_of_mem isEntry) inKey inOther
      sameOther same
    simp [sameKey] at differs
  · unfold lookup
    rw [if_neg same, List.find?_filter]
    congr 1
    refine List.find?_congr fun entry member => ?_
    have apart : equal entry.1 other = true → ¬ equal entry.1 key = true :=
      fun sameOther sameKey => same (by
        rw [← equals_left_congr equivalence (distinct.known_of_mem member) inKey inOther sameKey]
        exact sameOther)
    rw [Bool.eq_iff_iff, decide_eq_true_iff, Bool.not_eq_true', ← Bool.not_eq_true]
    exact ⟨And.right, fun sameOther => ⟨apart sameOther, sameOther⟩⟩

theorem lookup_of_mem (distinct : Distinct keys equal (entries.map Prod.fst))
    {entry : Value × Value} (member : entry ∈ entries) :
    lookup equal entries entry.1 = some entry.2 := by
  induction entries with
  | nil =>
      cases member
  | cons first rest inductionHypothesis =>
      rw [lookup_cons]
      rcases List.mem_cons.mp member with rfl | inRest
      · exact if_pos (equivalence.refl ⟨entry.1, distinct.known_of_mem member⟩)
      · have unequal := (List.pairwise_cons.mp distinct.unequal).1 entry.1
          (List.mem_map_of_mem inRest)
        rw [if_neg unequal, inductionHypothesis distinct.tail inRest]

end Laws

/-! ## Comparing keys in a store -/

/-- In the store, all keys of the given kind compare as told, also while the given dictionary is
being changed. -/
def ComparesAs (store : Store) (held : Option ObjectId) (keys : Value → Prop)
    (equal : Value → Value → Bool) : Prop :=
  ∀ a b, keys a → keys b → store.equals held a b = .ok (equal a b)

section Comparing

variable {keys : Value → Prop} {equal : Value → Value → Bool} {store : Store}
  {held : Option ObjectId} {entries : List (Value × Value)} {key value : Value}

theorem position?_eq_ok (compares : ComparesAs store held keys equal)
    (known : ∀ entry ∈ entries, keys entry.1) (inKey : keys key) :
    position? store held entries key =
      .ok (entries.findIdx? fun entry => equal entry.1 key) :=
  findPosition_eq_ok fun entry member => compares entry.1 key (known entry member) inKey

theorem get?_eq_ok (compares : ComparesAs store held keys equal)
    (known : ∀ entry ∈ entries, keys entry.1) (inKey : keys key) :
    get? store held entries key = .ok (lookup equal entries key) := by
  unfold get? lookup
  rw [position?_eq_ok compares known inKey, List.find?_eq_bind_findIdx?_getElem?, Option.map_bind]
  rfl

theorem insert_eq_ok (compares : ComparesAs store held keys equal)
    (known : ∀ entry ∈ entries, keys entry.1) (inKey : keys key) :
    insert store held entries key value = .ok (inserted equal entries key value) := by
  unfold insert inserted
  rw [position?_eq_ok compares known inKey]
  cases entries.findIdx? fun entry => equal entry.1 key with
  | none | some _ =>
      rfl

theorem remove_eq_ok (compares : ComparesAs store held keys equal)
    (known : ∀ entry ∈ entries, keys entry.1) (inKey : keys key) :
    remove store held entries key = .ok (removed equal entries key) := by
  unfold remove removed
  rw [position?_eq_ok compares known inKey]
  cases entries.findIdx? fun entry => equal entry.1 key with
  | none | some _ =>
      rfl

end Comparing

/-! ## After any requests -/

/-- The entries have distinct keys, in the order in which these came in, and what is found under a
key is what the requests have put there. -/
structure Tracks (keys : Value → Prop) (equal : Value → Value → Bool) (requests : List Request)
    (entries : List (Value × Value)) : Prop where
  distinct : Distinct keys equal (entries.map Prod.fst)
  found : ∀ key, keys key → lookup equal entries key = lastValue equal requests key
  listed : entries.map Prod.fst = firstInserted equal requests

section Requests

variable {keys : Value → Prop} {equal : Value → Value → Bool} {requests : List Request}
  {entries : List (Value × Value)} {key : Value}

theorem Tracks.insert
    (equivalence : Equivalence fun a b : { key // keys key } => equal a.1 b.1 = true)
    (tracks : Tracks keys equal requests entries) (inKey : keys key) (value : Value) :
    Tracks keys equal (requests ++ [.insert key value]) (inserted equal entries key value) where
  distinct := by
    cases present : lookup equal entries key with
    | some _ =>
        rw [map_fst_inserted, present]
        simpa using tracks.distinct
    | none =>
        rw [inserted_of_lookup_eq_none value present, List.map_append]
        exact tracks.distinct.append_singleton inKey (lookup_eq_none_iff.mp present)
  found := by
    intro other inOther
    rw [lookup_inserted equivalence tracks.distinct inKey inOther, tracks.found other inOther,
      lastValue_append_singleton, Request.assigns]
    split <;> rfl
  listed := by
    rw [map_fst_inserted, tracks.listed, tracks.found key inKey, firstInserted_append_singleton]
    congr 1
    exact (List.filter_eq_self.mpr fun _ _ => rfl).symm

theorem Tracks.remove
    (equivalence : Equivalence fun a b : { key // keys key } => equal a.1 b.1 = true)
    (tracks : Tracks keys equal requests entries) (inKey : keys key) :
    Tracks keys equal (requests ++ [.remove key]) (removed equal entries key) := by
  have remaining : (removed equal entries key).map Prod.fst =
      (entries.map Prod.fst).filter fun other => !equal other key := by
    rw [removed_eq_filter equivalence tracks.distinct inKey, List.filter_map]
    rfl
  constructor
  · rw [remaining]
    exact tracks.distinct.filter _
  · intro other inOther
    rw [lookup_removed equivalence tracks.distinct inKey inOther, tracks.found other inOther,
      lastValue_append_singleton, Request.assigns]
    split <;> rfl
  · rw [remaining, tracks.listed, firstInserted_append_singleton]
    exact (List.append_nil _).symm

/-- Where keys compare as told, no request fails, and what holds before it holds after it. -/
theorem Tracks.serve {store : Store} {held : Option ObjectId}
    (equivalence : Equivalence fun a b : { key // keys key } => equal a.1 b.1 = true)
    (compares : ComparesAs store none keys equal)
    (comparesHeld : ComparesAs store held keys equal)
    (tracks : Tracks keys equal requests entries) (request : Request)
    (inKey : keys request.key) :
    ∃ later, serve store held entries request = .ok later ∧
      Tracks keys equal (requests ++ [request]) later := by
  have known : ∀ entry ∈ entries, keys entry.1 := fun _ member =>
    tracks.distinct.known_of_mem member
  have asked : (firstInserted equal requests).filter (fun _ => true) ++ [] =
      firstInserted equal requests := by
    rw [List.append_nil]
    exact List.filter_eq_self.mpr fun _ _ => rfl
  cases request with
  | insert key value =>
      exact ⟨_, insert_eq_ok comparesHeld known inKey, tracks.insert equivalence inKey value⟩
  | remove key =>
      exact ⟨_, remove_eq_ok comparesHeld known inKey, tracks.remove equivalence inKey⟩
  | get key | contains key =>
      refine ⟨entries, ?_, tracks.distinct, fun other inOther => ?_, ?_⟩
      · have isFound : get? store none entries key = _ := get?_eq_ok compares known inKey
        change (get? store none entries key >>= _) = _
        rw [isFound]
        rfl
      · rw [lastValue_append_singleton]
        exact tracks.found other inOther
      · rw [firstInserted_append_singleton]
        exact tracks.listed.trans asked.symm

theorem tracks_after
    (equivalence : Equivalence fun a b : { key // keys key } => equal a.1 b.1 = true)
    (history : List (Store × Request)) (known : ∀ step ∈ history, keys step.2.key)
    (unmutated : ∀ step ∈ history, ComparesAs step.1 none keys equal) :
    ∃ entries, after history = .ok entries ∧
      Tracks keys equal (history.map Prod.snd) entries := by
  induction history using List.reverseRecOn with
  | nil =>
      exact ⟨[], rfl, ⟨fun key member => (List.not_mem_nil member).elim, .nil⟩,
        fun key inKey => rfl, rfl⟩
  | append_singleton history step inductionHypothesis =>
      have isStep : step ∈ history ++ [step] := by simp
      obtain ⟨entries, isAfter, tracks⟩ := inductionHypothesis
        (fun step member => known step (List.mem_append_left _ member))
        (fun step member => unmutated step (List.mem_append_left _ member))
      have compares := unmutated step isStep
      obtain ⟨later, served, stillTracks⟩ :=
        tracks.serve equivalence compares compares step.2 (known step isStep)
      refine ⟨later, ?_, ?_⟩
      · rw [after_append_singleton, isAfter]
        exact served
      · rw [List.map_append]
        exact stillTracks

end Requests

/-! ## The whole statement -/

/-- The entries are those of an ordered map of which the given requests have been made, and which is
asked and changed in a store where keys compare as told.  A key is in it if a value is found under
the key. -/
structure OrderedMap (keys : Value → Prop) (equal : Value → Value → Bool) (store : Store)
    (requests : List Request) (entries : List (Value × Value)) : Prop where
  /-- No two stored keys are equal. -/
  unequal : (entries.map Prod.fst).Pairwise fun a b => ¬ equal a b = true
  /-- The value of a key is the one last inserted since its last removal. -/
  get : ∀ key, keys key → get? store none entries key = .ok (lastValue equal requests key)
  /-- A removal keeps all other entries as they are and in their order, and a removed key is not
  there. -/
  removed : ∀ key, keys key → ∃ rest, remove store none entries key = .ok rest ∧
    rest = (entries.filter fun entry => !equal entry.1 key) ∧ get? store none rest key = .ok none
  /-- An insertion of a key that is there keeps its place and the stored key, and all other
  entries. -/
  replaced : ∀ key value found, keys key → get? store none entries key = .ok (some found) →
    insert store none entries key value =
      .ok (entries.map fun entry => if equal entry.1 key then (entry.1, value) else entry)
  /-- An insertion of a key that is not there puts it last. -/
  added : ∀ key value, keys key → get? store none entries key = .ok none →
    insert store none entries key value = .ok (entries ++ [(key, value)])
  /-- The keys stand in the order of their first insertion. -/
  keysInOrder : entries.map Prod.fst = firstInserted equal requests
  /-- So do the values, each of them the current value of its key. -/
  valuesInOrder : (entries.map Prod.snd).map some =
    (firstInserted equal requests).map (lastValue equal requests)
  /-- And so do the pairs. -/
  pairsInOrder : (entries.map fun entry => (entry.1, some entry.2)) =
    (firstInserted equal requests).map fun key => (key, lastValue equal requests key)
  /-- There are as many entries as keys that were inserted and not removed. -/
  length : entries.length = (firstInserted equal requests).length

theorem Tracks.orderedMap {keys : Value → Prop} {equal : Value → Value → Bool} {store : Store}
    {requests : List Request} {entries : List (Value × Value)}
    (equivalence : Equivalence fun a b : { key // keys key } => equal a.1 b.1 = true)
    (compares : ComparesAs store none keys equal) (tracks : Tracks keys equal requests entries) :
    OrderedMap keys equal store requests entries := by
  have distinct := tracks.distinct
  have known : ∀ entry ∈ entries, keys entry.1 := fun _ member => distinct.known_of_mem member
  have valueOf : ∀ entry ∈ entries, some entry.2 = lastValue equal requests entry.1 := by
    intro entry member
    rw [← tracks.found entry.1 (known entry member)]
    exact (lookup_of_mem equivalence distinct member).symm
  have found : ∀ {key}, keys key →
      get? store none entries key = .ok (lookup equal entries key) :=
    fun inKey => get?_eq_ok compares known inKey
  refine
    { unequal := distinct.unequal
      get := fun key inKey => (found inKey).trans (congrArg _ (tracks.found key inKey))
      removed := fun key inKey => ⟨_, remove_eq_ok compares known inKey,
        removed_eq_filter equivalence distinct inKey, ?_⟩
      replaced := fun key value value' inKey present => ?_
      added := fun key value inKey absent => ?_
      keysInOrder := tracks.listed
      valuesInOrder := ?_
      pairsInOrder := ?_
      length := ?_ }
  · have isSelf : equal key key = true := equivalence.refl ⟨key, inKey⟩
    have still := (tracks.remove equivalence inKey).distinct
    rw [get?_eq_ok compares (fun _ member => still.known_of_mem member) inKey,
      lookup_removed equivalence distinct inKey inKey, if_pos isSelf]
  · rw [found inKey] at present
    rw [insert_eq_ok compares known inKey, inserted_eq_map equivalence distinct inKey]
    rw [Except.ok.inj present]
    rfl
  · rw [found inKey] at absent
    rw [insert_eq_ok compares known inKey, inserted_of_lookup_eq_none value (Except.ok.inj absent)]
  · rw [← tracks.listed, List.map_map, List.map_map]
    exact List.map_congr_left valueOf
  · rw [← tracks.listed, List.map_map]
    refine List.map_congr_left fun entry member => ?_
    rw [valueOf entry member]
    rfl
  · rw [← tracks.listed, List.length_map]

/-- On keys on which equality is an equivalence, and stays the same one, a dictionary that was empty
at first is an ordered map, whatever has been requested of it. -/
theorem orderedMap_after {keys : Value → Prop} {equal : Value → Value → Bool} {now : Store}
    (equivalence : Equivalence fun a b : { key // keys key } => equal a.1 b.1 = true)
    (history : List (Store × Request)) (known : ∀ step ∈ history, keys step.2.key)
    (unmutated : ∀ step ∈ history, ComparesAs step.1 none keys equal)
    (compares : ComparesAs now none keys equal) :
    ∃ entries, after history = .ok entries ∧
      OrderedMap keys equal now (history.map Prod.snd) entries := by
  obtain ⟨entries, isAfter, tracks⟩ := tracks_after equivalence history known unmutated
  exact ⟨entries, isAfter, tracks.orderedMap equivalence compares⟩

/-- An integer, the floating-point number of the same size, and two arrays with equal items. -/
def fewKeys : List Value := [.int 1, .float (.ofInt 1), .ref ⟨0⟩, .ref ⟨1⟩]

/-- A value that is replaced under an equal key, a key that is removed and comes in again, and
another one that stays. -/
def fewRequests : List Request :=
  [.insert (.int 1) (.string "one"), .insert (.ref ⟨0⟩) (.string "array"),
    .insert (.float (.ofInt 1)) (.string "uno"), .get (.int 1), .remove (.int 1),
    .contains (.float (.ofInt 1)), .insert (.ref ⟨1⟩) (.bool true),
    .insert (.float (.ofInt 1)) .nil]

/-- The requests, made in a store with the two arrays. -/
def fewSteps : List (Store × Request) := fewRequests.map fun request => (.reordered, request)

theorem orderedMap_after_fewSteps :
    ∃ entries, after fewSteps = .ok entries ∧
      entries = [(.ref ⟨0⟩, .bool true), (.float (.ofInt 1), .nil)] ∧
      OrderedMap (· ∈ fewKeys) (Store.reordered.alike 0) (Store.reordered.alloc (.array [])).2
        (fewSteps.map Prod.snd) entries := by
  let equal := Store.reordered.alike 0
  have refl : ∀ a ∈ fewKeys, equal a a = true := by decide
  have symm : ∀ a ∈ fewKeys, ∀ b ∈ fewKeys, equal a b = true → equal b a = true := by decide
  have trans : ∀ a ∈ fewKeys, ∀ b ∈ fewKeys, ∀ c ∈ fewKeys, equal a b = true →
      equal b c = true → equal a c = true := by
    decide
  have equivalence : Equivalence fun a b : { key // key ∈ fewKeys } => equal a.1 b.1 = true :=
    ⟨fun a => refl a.1 a.2, fun {a b} => symm a.1 a.2 b.1 b.2,
      fun {a b c} => trans a.1 a.2 b.1 b.2 c.1 c.2⟩
  have known : ∀ request ∈ fewRequests, request.key ∈ fewKeys := by decide
  have before : ∀ a ∈ fewKeys, ∀ b ∈ fewKeys,
      Store.reordered.equals none a b = .ok (equal a b) := by
    decide
  have now : ∀ a ∈ fewKeys, ∀ b ∈ fewKeys,
      (Store.reordered.alloc (.array [])).2.equals none a b = .ok (equal a b) := by
    decide
  obtain ⟨entries, isAfter, orderedMap⟩ := orderedMap_after equivalence fewSteps
    (List.forall_mem_map.mpr known)
    (List.forall_mem_map.mpr fun _ _ a b inA inB => before a inA b inB)
    (fun a b inA inB => now a inA b inB)
  have isEntries : after fewSteps = .ok [(.ref ⟨0⟩, .bool true), (.float (.ofInt 1), .nil)] := by
    decide
  exact ⟨entries, isAfter, Except.ok.inj (isAfter.symm.trans isEntries), orderedMap⟩

/-! ## Messages to a dictionary -/

namespace Request

/-- The message that makes a request of a dictionary. -/
def message : Request → DictionaryMessage
  | insert .. => .atPut
  | remove _ => .removeKey
  | get _ => .at
  | contains _ => .includesKey

/-- The arguments of the message. -/
def arguments : Request → List Value
  | insert key value => [key, value]
  | remove key | get key | contains key => [key]

/-- What the message is answered with where a value has been found under the key or not, or why it
fails. -/
def reply (store : Store) (found : Option Value) : Request → Except Cause Value
  | insert _ value => .ok value
  | remove key | get key => found.elim (.error (.keyNotFound (store.print key))) .ok
  | contains _ => .ok (.bool found.isSome)

/-- What the message leads to, with the store that is reached. -/
def outcome (store : Store) (found : Option Value) (request : Request) (later : Store) :
    EStateM.Result Cause Store Action :=
  match request.reply store found with
  | .ok value => .ok (.answer value) later
  | .error cause => .error cause later

end Request

section Messages

variable {keys : Value → Prop} {equal : Value → Value → Bool} {now store : Store} {id : ObjectId}
  {requests : List Request} {entries changed : List (Value × Value)} {found : Option Value}
  {key value : Value}

theorem perform_at (isFound : get? store none entries key = .ok found) :
    DictionaryMessage.perform .at id entries [key] store =
      (Request.get key).outcome store found store := by
  unfold Request.outcome Request.reply
  change (settle (get? store none entries key) >>= _ : Effect Action) store = _
  rw [isFound]
  cases found with
  | none | some _ =>
      rfl

theorem perform_includesKey (isFound : get? store none entries key = .ok found) :
    DictionaryMessage.perform .includesKey id entries [key] store =
      (Request.contains key).outcome store found store := by
  change (settle (get? store none entries key) >>= _ : Effect Action) store = _
  rw [isFound]
  rfl

theorem perform_atPut (isChanged : insert store (some id) entries key value = .ok changed) :
    DictionaryMessage.perform .atPut id entries [key, value] store =
      (Request.insert key value).outcome store found (store.set id (.dictionary changed)) := by
  change (settle (insert store (some id) entries key value) >>= _ : Effect Action) store = _
  rw [isChanged]
  rfl

theorem perform_removeKey (isFound : get? store (some id) entries key = .ok found)
    (isChanged : remove store (some id) entries key = .ok changed) :
    DictionaryMessage.perform .removeKey id entries [key] store =
      (Request.remove key).outcome store found
        (if found.isSome then store.set id (.dictionary changed) else store) := by
  unfold Request.outcome Request.reply
  change (settle (get? store (some id) entries key) >>= _ : Effect Action) store = _
  rw [isFound]
  cases found with
  | none =>
      rfl
  | some value =>
      change (settle (remove store (some id) entries key) >>= _ : Effect Action) store = _
      rw [isChanged]
      rfl

/-- The message that makes a request is answered with the reply to it.  It changes the dictionary as
the request says, and nothing else. -/
theorem outcomeOf?_request (compares : ComparesAs store none keys equal)
    (comparesHeld : ComparesAs store (some id) keys equal)
    (known : ∀ entry ∈ entries, keys entry.1) (stored : store.get? id = some (.dictionary entries))
    (request : Request) (inKey : keys request.key) :
    ∃ later served, store.outcomeOf? (.ref id) request.message.selector request.arguments =
        some (request.outcome store (lookup equal entries request.key) later) ∧
      serve store (some id) entries request = .ok served ∧
      later.get? id = some (.dictionary served) ∧
      ∀ other, other ≠ id → later.get? other = store.get? other := by
  have named : DictionaryMessage.ofSelector? request.message.selector = some request.message := by
    cases request.message <;> decide
  rw [Store.outcomeOf?_named (Store.builtinResponse?_dictionary stored _) named]
  cases request with
  | insert key value =>
      have isChanged :=
        @insert_eq_ok keys equal store (some id) entries key value comparesHeld known inKey
      exact ⟨_, _, congrArg some (perform_atPut isChanged), isChanged,
        Store.get?_set_self _ stored, fun other differs => Store.get?_set_of_ne _ differs⟩
  | remove key =>
      have isChanged : remove store (some id) entries key = _ :=
        remove_eq_ok comparesHeld known inKey
      have isFound : get? store (some id) entries key = _ := get?_eq_ok comparesHeld known inKey
      let later := if (lookup equal entries key).isSome then
        store.set id (.dictionary (removed equal entries key)) else store
      refine ⟨later, _, congrArg some (perform_removeKey isFound isChanged), isChanged, ?_⟩
      subst later
      by_cases present : (lookup equal entries key).isSome = true
      · rw [if_pos present]
        exact ⟨Store.get?_set_self _ stored, fun other differs => Store.get?_set_of_ne _ differs⟩
      · rw [if_neg present]
        refine ⟨?_, fun other _ => rfl⟩
        rw [Bool.not_eq_true, Option.isSome_eq_false_iff, Option.isNone_iff_eq_none] at present
        rw [removed_of_lookup_eq_none present]
        exact stored
  | get key =>
      have isFound : get? store none entries key = _ := get?_eq_ok compares known inKey
      refine ⟨store, entries, congrArg some (perform_at isFound), ?_, stored, fun other _ => rfl⟩
      change (get? store none entries key >>= _) = _
      rw [isFound]
      rfl
  | contains key =>
      have isFound : get? store none entries key = _ := get?_eq_ok compares known inKey
      refine ⟨store, entries, congrArg some (perform_includesKey isFound), ?_, stored,
        fun other _ => rfl⟩
      change (get? store none entries key >>= _) = _
      rw [isFound]
      rfl

/-- The store with which a response ends. -/
def reachedStore : EStateM.Result Cause Store Action → Store
  | .ok _ store | .error _ store => store

/-- A dictionary has been made of pairs and has then been sent the messages of requests, all with
keys of the given kind, which compared as told, also while the dictionary was being changed.  In
between, anything else may have happened to other objects. -/
inductive Requested (keys : Value → Prop) (equal : Value → Value → Bool) (id : ObjectId) :
    List Request → Store → Prop
  | made {store : Store} {pairs entries : List (Value × Value)}
      (known : ∀ pair ∈ pairs, keys pair.1) (compares : ComparesAs store none keys equal)
      (isMade : ofPairs store pairs = .ok entries)
      (isNew : (store.alloc (.dictionary entries)).1 = id) :
      Requested keys equal id (pairs.map fun pair => .insert pair.1 pair.2)
        (store.alloc (.dictionary entries)).2
  | asked {requests : List Request} {store : Store}
      (before : Requested keys equal id requests store) {request : Request}
      (known : keys request.key) (compares : ComparesAs store none keys equal)
      (comparesHeld : ComparesAs store (some id) keys equal)
      {outcome : EStateM.Result Cause Store Action}
      (response : store.outcomeOf? (.ref id) request.message.selector request.arguments =
        some outcome) :
      Requested keys equal id (requests ++ [request]) (reachedStore outcome)
  | elsewhere {requests : List Request} {store later : Store}
      (before : Requested keys equal id requests store)
      (untouched : later.get? id = store.get? id) :
      Requested keys equal id requests later

/-- What has been requested of a dictionary by messages is what it holds. -/
theorem Requested.tracks
    (equivalence : Equivalence fun a b : { key // keys key } => equal a.1 b.1 = true)
    (requested : Requested keys equal id requests store) :
    ∃ entries, store.get? id = some (.dictionary entries) ∧
      Tracks keys equal requests entries := by
  induction requested with
  | @made store pairs entries known compares isMade isNew =>
      refine ⟨entries, isNew ▸ Store.get?_alloc_new store _, ?_⟩
      have inserted : ∀ pair ∈ pairs, keys (Request.insert pair.1 pair.2).key := known
      obtain ⟨others, isAfter, tracks⟩ := tracks_after equivalence
        (pairs.map fun pair => (store, Request.insert pair.1 pair.2))
        (List.forall_mem_map.mpr inserted) (List.forall_mem_map.mpr fun _ _ => compares)
      rw [← ofPairs_eq_after, isMade] at isAfter
      cases isAfter
      rw [List.map_map] at tracks
      exact tracks
  | @asked requests store before request known compares comparesHeld outcome response hypothesis =>
      obtain ⟨entries, stored, tracks⟩ := hypothesis
      obtain ⟨later, served, isOutcome, isServed, holds, _⟩ := outcomeOf?_request compares
        comparesHeld (fun _ member => tracks.distinct.known_of_mem member) stored request known
      have isLater : reachedStore outcome = later := by
        obtain rfl := Option.some.inj (response.symm.trans isOutcome)
        unfold Request.outcome
        split <;> rfl
      obtain ⟨others, isOthers, stillTracks⟩ :=
        tracks.serve equivalence compares comparesHeld request known
      cases isServed.symm.trans isOthers
      exact ⟨served, isLater ▸ holds, stillTracks⟩
  | elsewhere before untouched hypothesis =>
      obtain ⟨entries, stored, tracks⟩ := hypothesis
      exact ⟨entries, untouched.trans stored, tracks⟩

/-- A dictionary in a store is an ordered map, whatever has been requested of it by messages. -/
theorem Requested.orderedMap
    (equivalence : Equivalence fun a b : { key // keys key } => equal a.1 b.1 = true)
    (requested : Requested keys equal id requests store)
    (compares : ComparesAs now none keys equal) :
    ∃ entries, store.get? id = some (.dictionary entries) ∧
      OrderedMap keys equal now requests entries := by
  obtain ⟨entries, stored, tracks⟩ := requested.tracks equivalence
  exact ⟨entries, stored, tracks.orderedMap equivalence compares⟩

end Messages

end Entries

end Missive
