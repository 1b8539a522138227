import LiveScene.Proofs.Json.Number
import Mathlib.Data.List.Chain

/-!
# Values and their tokens

Tokens are read as the value whose tokens they are, if its containers do not nest too deep
(`Json.Within`, `ofTokens?_eq_some_iff`). One way, after the tokens of a value the reading has the
value complete inside the containers that were open before (`Completes`). The other way, every
reading knows the tokens read so far (`Reading.Has`), and a complete value has all of them.

A value is legible within some depth if besides its numbers read back (`Json.Legible`). Words never
follow each other among the tokens of a value (`spread_tokens`).
-/

namespace LiveScene.Json

/-- A value whose containers nest at most `depth` deep. -/
inductive Within : Nat → Json → Prop where
  | null {depth : Nat} : Within depth .null
  | bool {depth : Nat} (b : Bool) : Within depth (.bool b)
  | num {depth : Nat} (n : Number) : Within depth (.num n)
  | str {depth : Nat} (s : String) : Within depth (.str s)
  | arr {depth : Nat} {items : List Json} (h : ∀ v ∈ items, Within depth v) :
    Within (depth + 1) (.arr items)
  | obj {depth : Nat} {members : List (String × Json)} (h : ∀ m ∈ members, Within depth m.2) :
    Within (depth + 1) (.obj members)

/-- A value whose containers nest at most `depth` deep and whose numbers read back. -/
inductive Legible : Nat → Json → Prop where
  | null {depth : Nat} : Legible depth .null
  | bool {depth : Nat} (b : Bool) : Legible depth (.bool b)
  | num {depth : Nat} {n : Number} (h : n.Legible) : Legible depth (.num n)
  | str {depth : Nat} (s : String) : Legible depth (.str s)
  | arr {depth : Nat} {items : List Json} (h : ∀ v ∈ items, Legible depth v) :
    Legible (depth + 1) (.arr items)
  | obj {depth : Nat} {members : List (String × Json)} (h : ∀ m ∈ members, Legible depth m.2) :
    Legible (depth + 1) (.obj members)

theorem Legible.within {depth : Nat} {v : Json} (h : Legible depth v) : Within depth v := by
  induction h with
  | null => exact .null
  | bool b => exact .bool b
  | num _ => exact .num _
  | str s => exact .str s
  | arr _ ih => exact .arr ih
  | obj _ ih => exact .obj ih

theorem Within.mono {depth depth' : Nat} {v : Json} (h : Within depth v) (hle : depth ≤ depth') :
    Within depth' v := by
  induction h generalizing depth' with
  | null => exact .null
  | bool b => exact .bool b
  | num n => exact .num n
  | str s => exact .str s
  | arr _ ih =>
    obtain ⟨d, rfl⟩ : ∃ d, depth' = d + 1 := ⟨depth' - 1, by omega⟩
    exact .arr fun v hv => ih v hv (by omega)
  | obj _ ih =>
    obtain ⟨d, rfl⟩ : ∃ d, depth' = d + 1 := ⟨depth' - 1, by omega⟩
    exact .obj fun m hm => ih m hm (by omega)

namespace Reading

/-! ## Containers -/

variable {limit : Nat}

/-- Reading the tokens of `v` completes it, inside whatever containers leave room for it. -/
def Completes (limit depth : Nat) (v : Json) : Prop :=
  ∀ outer : List Open, outer.length + depth ≤ limit →
    v.tokens.foldlM (next? limit) (.value outer) = some (complete v outer)

/-- No value starts with the end of an array, so the first item is read like any other. -/
theorem foldlM_firstItem (v : Json) (ts : List Token) (outer : List Open) :
    (v.tokens ++ ts).foldlM (next? limit) (.firstItem outer) =
      (v.tokens ++ ts).foldlM (next? limit) (.value (.array [] :: outer)) := by
  cases v with
  | arr items => cases items <;> rfl
  | obj members => cases members <;> rfl
  | _ => rfl

theorem foldlM_itemTokens {depth : Nat} {vs : List Json}
    (hvs : ∀ v ∈ vs, Completes limit depth v) (items : List Json) {outer : List Open}
    (hroom : outer.length + (depth + 1) ≤ limit) :
    (itemTokens vs).foldlM (next? limit) (.afterItem items outer) =
      some (complete (.arr (items.reverse ++ vs)) outer) := by
  induction vs generalizing items with
  | nil =>
    rw [List.append_nil]
    rfl
  | cons v vs ih =>
    have hv := hvs v List.mem_cons_self (.array items :: outer)
      (by rw [List.length_cons]; omega)
    have hrest := ih (fun w hw => hvs w (List.mem_cons_of_mem _ hw)) (v :: items)
    rw [List.reverse_cons, List.append_assoc, List.singleton_append] at hrest
    rw [itemTokens, List.foldlM_cons]
    change (v.tokens ++ itemTokens vs).foldlM (next? limit) (.value (.array items :: outer)) = _
    rw [List.foldlM_append, hv]
    exact hrest

theorem foldlM_memberTokens {depth : Nat} {ms : List (String × Json)}
    (hms : ∀ m ∈ ms, Completes limit depth m.2) (members : List (String × Json))
    {outer : List Open} (hroom : outer.length + (depth + 1) ≤ limit) :
    (memberTokens ms).foldlM (next? limit) (.afterMember members outer) =
      some (complete (.obj (members.reverse ++ ms)) outer) := by
  induction ms generalizing members with
  | nil =>
    rw [List.append_nil]
    rfl
  | cons m ms ih =>
    obtain ⟨k, v⟩ := m
    have hv := hms (k, v) List.mem_cons_self (.object members k :: outer)
      (by rw [List.length_cons]; omega)
    have hrest := ih (fun w hw => hms w (List.mem_cons_of_mem _ hw)) ((k, v) :: members)
    rw [List.reverse_cons, List.append_assoc, List.singleton_append] at hrest
    rw [memberTokens]
    change (v.tokens ++ memberTokens ms).foldlM (next? limit)
      (.value (.object members k :: outer)) = _
    rw [List.foldlM_append, hv]
    exact hrest

theorem completes_arr {depth : Nat} {vs : List Json}
    (hvs : ∀ v ∈ vs, Completes limit depth v) : Completes limit (depth + 1) (.arr vs) := by
  intro outer hroom
  have hopen : outer.length < limit := by omega
  cases vs with
  | nil =>
    rw [tokens, List.foldlM_cons, next?, start?, if_pos hopen]
    rfl
  | cons v vs =>
    have hv := hvs v List.mem_cons_self (.array [] :: outer) (by rw [List.length_cons]; omega)
    have hrest := foldlM_itemTokens (fun w hw => hvs w (List.mem_cons_of_mem _ hw)) [v] hroom
    rw [tokens, List.foldlM_cons, next?, start?, if_pos hopen]
    change (v.tokens ++ itemTokens vs).foldlM (next? limit) (.firstItem outer) = _
    rw [foldlM_firstItem, List.foldlM_append, hv]
    exact hrest

theorem completes_obj {depth : Nat} {ms : List (String × Json)}
    (hms : ∀ m ∈ ms, Completes limit depth m.2) : Completes limit (depth + 1) (.obj ms) := by
  intro outer hroom
  have hopen : outer.length < limit := by omega
  cases ms with
  | nil =>
    rw [tokens, List.foldlM_cons, next?, start?, if_pos hopen]
    rfl
  | cons m ms =>
    obtain ⟨k, v⟩ := m
    have hv := hms (k, v) List.mem_cons_self (.object [] k :: outer)
      (by rw [List.length_cons]; omega)
    have hrest := foldlM_memberTokens (fun w hw => hms w (List.mem_cons_of_mem _ hw)) [(k, v)] hroom
    rw [tokens, List.foldlM_cons, next?, start?, if_pos hopen]
    change (v.tokens ++ memberTokens ms).foldlM (next? limit) (.value (.object [] k :: outer)) = _
    rw [List.foldlM_append, hv]
    exact hrest

/-- Reading the tokens of a value completes it. -/
theorem completes_of_within {depth : Nat} {v : Json} (h : Within depth v) :
    Completes limit depth v := by
  induction h with
  | arr _ ih => exact completes_arr ih
  | obj _ ih => exact completes_obj ih
  | _ =>
    intro outer _
    rfl

/-! ## The tokens read so far -/

/-- The tokens of the items of an open array, with a comma after each. -/
def itemsBefore (items : List Json) : List Token :=
  items.reverse.flatMap fun v => v.tokens ++ [.comma]

/-- The tokens of the members of an open object, with a comma after each. -/
def membersBefore (members : List (String × Json)) : List Token :=
  members.reverse.flatMap fun m => .str m.1 :: .colon :: (m.2.tokens ++ [.comma])

/-- The tokens of an open container up to the value under way. -/
def openTokens : Open → List Token
  | .array items => .openArray :: itemsBefore items
  | .object members name => .openObject :: (membersBefore members ++ [.str name, .colon])

/-- The tokens of the containers around a value, up to that value. -/
def outerTokens (outer : List Open) : List Token := outer.reverse.flatMap openTokens

theorem outerTokens_cons (o : Open) (outer : List Open) :
    outerTokens (o :: outer) = outerTokens outer ++ openTokens o := by
  simp [outerTokens]

theorem tokens_append_itemTokens (v w : Json) (vs : List Json) :
    v.tokens ++ itemTokens (vs ++ [w]) =
      (v :: vs).flatMap (fun u => u.tokens ++ [.comma]) ++ (w.tokens ++ [.closeArray]) := by
  induction vs generalizing v with
  | nil => simp [itemTokens]
  | cons u vs ih => simp [itemTokens, ih]

theorem tokens_append_memberTokens (m n : String × Json) (ms : List (String × Json)) :
    m.2.tokens ++ memberTokens (ms ++ [n]) =
      m.2.tokens ++ .comma ::
        (ms.flatMap (fun m => .str m.1 :: .colon :: (m.2.tokens ++ [.comma])) ++
          .str n.1 :: .colon :: (n.2.tokens ++ [.closeObject])) := by
  induction ms generalizing m with
  | nil => simp [memberTokens]
  | cons k ms ih => simp [memberTokens, ih]

/-- An array ends after its last item. -/
theorem tokens_arr_cons (items : List Json) (v : Json) :
    (Json.arr (v :: items).reverse).tokens =
      openTokens (.array items) ++ (v.tokens ++ [.closeArray]) := by
  rw [List.reverse_cons, openTokens, itemsBefore]
  cases items.reverse with
  | nil => simp [tokens, itemTokens]
  | cons w ws => simp [tokens, tokens_append_itemTokens]

/-- An object ends after its last member. -/
theorem tokens_obj_cons (members : List (String × Json)) (name : String) (v : Json) :
    (Json.obj ((name, v) :: members).reverse).tokens =
      openTokens (.object members name) ++ (v.tokens ++ [.closeObject]) := by
  rw [List.reverse_cons, openTokens, membersBefore]
  cases members.reverse with
  | nil => simp [tokens, memberTokens]
  | cons m ms => simp [tokens, tokens_append_memberTokens]

/-- The values read so far in an open container. -/
def openValues : Open → List Json
  | .array items => items
  | .object members _ => members.map (·.2)

/-- The containers around a value leave room for it, and what has been read in them did not nest
too deep. -/
def Room (limit : Nat) : List Open → Prop
  | [] => True
  | o :: outer => outer.length < limit ∧
    (∀ v ∈ openValues o, Within (limit - (outer.length + 1)) v) ∧ Room limit outer

/-- A reading after the tokens `ts`. -/
inductive Has (limit : Nat) : Reading → List Token → Prop where
  | value {outer : List Open} (h : Room limit outer) : Has limit (.value outer) (outerTokens outer)
  | complete {v : Json} {outer : List Open} (hv : Within (limit - outer.length) v)
    (h : Room limit outer) : Has limit (complete v outer) (outerTokens outer ++ v.tokens)
  | firstItem {outer : List Open} (h : Room limit (.array [] :: outer)) :
    Has limit (.firstItem outer) (outerTokens outer ++ [.openArray])
  | firstName {outer : List Open} (h : Room limit (.object [] "" :: outer)) :
    Has limit (.firstName outer) (outerTokens outer ++ [.openObject])
  | nextName {members : List (String × Json)} {outer : List Open}
    (h : Room limit (.object members "" :: outer)) :
    Has limit (.nextName members outer) (outerTokens outer ++ .openObject :: membersBefore members)
  | afterName {members : List (String × Json)} {name : String} {outer : List Open}
    (h : Room limit (.object members name :: outer)) :
    Has limit (.afterName members name outer)
      (outerTokens outer ++ .openObject :: (membersBefore members ++ [.str name]))

/-- The first token of a value is read where there is room for the value. -/
theorem has_of_start? {outer : List Open} {t : Token} {r : Reading} (houter : Room limit outer)
    (h : start? limit outer t = some r) : Has limit r (outerTokens outer ++ [t]) := by
  cases t with
  | null =>
    cases h
    exact .complete .null houter
  | bool b =>
    cases h
    exact .complete (.bool b) houter
  | num n =>
    cases h
    exact .complete (.num n) houter
  | str s =>
    cases h
    exact .complete (.str s) houter
  | openArray =>
    simp only [start?, Option.ite_none_right_eq_some] at h
    obtain ⟨hroom, ⟨⟩⟩ := h
    exact .firstItem ⟨hroom, by simp [openValues], houter⟩
  | openObject =>
    simp only [start?, Option.ite_none_right_eq_some] at h
    obtain ⟨hroom, ⟨⟩⟩ := h
    exact .firstName ⟨hroom, by simp [openValues], houter⟩
  | _ => cases h

/-- After a value inside a container, that container goes on or ends. -/
theorem has_of_complete {v : Json} {outer : List Open} {t : Token} {r : Reading}
    (hv : Within (limit - outer.length) v) (houter : Room limit outer)
    (h : (complete v outer).next? limit t = some r) :
    Has limit r (outerTokens outer ++ v.tokens ++ [t]) := by
  cases outer with
  | nil => cases t <;> cases h
  | cons o outer =>
    obtain ⟨hroom, hvalues, houter⟩ := houter
    have hdepth : limit - outer.length = limit - (outer.length + 1) + 1 := by omega
    cases o with
    | array items =>
      have hitems : ∀ w ∈ v :: items, Within (limit - (outer.length + 1)) w :=
        List.forall_mem_cons.2 ⟨hv, hvalues⟩
      cases t with
      | closeArray =>
        cases h
        have harr : Within (limit - outer.length) (.arr (v :: items).reverse) := by
          rw [hdepth]
          exact .arr fun w hw => hitems w (List.mem_reverse.1 hw)
        have hread := Has.complete harr houter
        rw [tokens_arr_cons] at hread
        simpa [outerTokens_cons] using hread
      | comma =>
        cases h
        have hread : Has limit (.value (.array (v :: items) :: outer)) _ :=
          .value ⟨hroom, hitems, houter⟩
        simpa [outerTokens_cons, openTokens, itemsBefore] using hread
      | _ => cases h
    | object members name =>
      have hmembers : ∀ m ∈ (name, v) :: members, Within (limit - (outer.length + 1)) m.2 :=
        List.forall_mem_cons.2 ⟨hv, fun m hm => hvalues m.2 (List.mem_map_of_mem hm)⟩
      cases t with
      | closeObject =>
        cases h
        have hobj : Within (limit - outer.length) (.obj ((name, v) :: members).reverse) := by
          rw [hdepth]
          exact .obj fun m hm => hmembers m (List.mem_reverse.1 hm)
        have hread := Has.complete hobj houter
        rw [tokens_obj_cons] at hread
        simpa [outerTokens_cons] using hread
      | comma =>
        cases h
        have hvalues : ∀ w ∈ ((name, v) :: members).map (·.2),
            Within (limit - (outer.length + 1)) w := List.forall_mem_map.2 hmembers
        have hread : Has limit (.nextName ((name, v) :: members) outer) _ :=
          .nextName ⟨hroom, hvalues, houter⟩
        simpa [outerTokens_cons, openTokens, membersBefore] using hread
      | _ => cases h

/-- Every token is added to those read so far. -/
theorem Has.next? {r r' : Reading} {t : Token} {ts : List Token} (h : Has limit r ts)
    (hnext : r.next? limit t = some r') : Has limit r' (ts ++ [t]) := by
  have hempty {outer : List Open} (hroom : outer.length < limit) :
      limit - outer.length = limit - (outer.length + 1) + 1 := by omega
  cases h with
  | value h => exact has_of_start? h hnext
  | complete hv h => exact has_of_complete hv h hnext
  | @firstItem outer h =>
    cases t with
    | closeArray =>
      cases hnext
      have harr : Within (limit - outer.length) (.arr []) := by
        rw [hempty h.1]
        exact .arr (by simp)
      simpa [tokens] using Has.complete harr h.2.2
    | _ =>
      rw [Reading.next?] at hnext
      · simpa [outerTokens_cons, openTokens, itemsBefore] using has_of_start? h hnext
      · exact Token.noConfusion
  | @firstName outer h =>
    cases t with
    | closeObject =>
      cases hnext
      have hobj : Within (limit - outer.length) (.obj []) := by
        rw [hempty h.1]
        exact .obj (by simp)
      simpa [tokens] using Has.complete hobj h.2.2
    | str name =>
      cases hnext
      have hread : Has limit (.afterName [] name outer) _ := .afterName h
      simpa [membersBefore] using hread
    | _ => cases hnext
  | @nextName members outer h =>
    cases t with
    | str name =>
      cases hnext
      have hread : Has limit (.afterName members name outer) _ := .afterName h
      simpa using hread
    | _ => cases hnext
  | afterName h =>
    cases t with
    | colon =>
      cases hnext
      simpa [outerTokens_cons, openTokens] using Has.value h
    | _ => cases hnext

theorem Has.foldlM {r r' : Reading} {ts us : List Token} (h : Has limit r ts)
    (hread : us.foldlM (Reading.next? limit) r = some r') : Has limit r' (ts ++ us) := by
  induction us generalizing r ts with
  | nil =>
    cases hread
    rwa [List.append_nil]
  | cons t us ih =>
    rw [List.foldlM_cons, Option.bind_eq_bind, Option.bind_eq_some_iff] at hread
    obtain ⟨s, hnext, hread⟩ := hread
    have hall := ih (h.next? hnext) hread
    rwa [List.append_assoc] at hall

/-- A value that is complete has all the tokens read. -/
theorem tokens_of_done {v : Json} {ts : List Token} (h : Has limit (.done v) ts) :
    v.tokens = ts ∧ Within limit v := by
  generalize hr : Reading.done v = r at h
  cases h with
  | @complete w outer hw _ =>
    cases outer with
    | nil =>
      cases hr
      exact ⟨rfl, hw⟩
    | cons o outer => cases o <;> cases hr
  | _ => cases hr

end Reading

/-- Tokens are read as the value whose tokens they are, if its containers do not nest too deep. -/
theorem ofTokens?_eq_some_iff {limit : Nat} {ts : List Token} {v : Json} :
    ofTokens? limit ts = some v ↔ v.tokens = ts ∧ Within limit v := by
  constructor
  · intro h
    have hstart : Reading.Has limit (.value []) (Reading.outerTokens []) := .value trivial
    unfold ofTokens? at h
    split at h
    · next hread =>
      cases h
      exact Reading.tokens_of_done (hstart.foldlM hread)
    · cases h
  · rintro ⟨rfl, hv⟩
    have hread : Reading.Completes limit limit v := Reading.completes_of_within hv
    rw [ofTokens?, hread [] (by simp)]
    rfl

/-! ## Words -/

/-- Whether a token is a word, which ends only where something else begins. -/
def Token.isWord : Token → Bool
  | .null => true
  | .bool _ => true
  | .num _ => true
  | _ => false

/-- Tokens of which no two words follow each other. -/
def Spread (ts : List Token) : Prop :=
  ts.IsChain fun t u => t.isWord = true → u.isWord = false

/-- Such tokens, of which the first is no word, so that they may follow one. -/
def Follows (ts : List Token) : Prop := Spread ts ∧ ∀ t ∈ ts.head?, t.isWord = false

theorem Follows.cons {t : Token} {ts : List Token} (h : Follows ts) : Spread (t :: ts) :=
  List.isChain_cons.2 ⟨fun u hu _ => h.2 u hu, h.1⟩

theorem follows_cons {t : Token} {ts : List Token} (ht : t.isWord = false) (h : Spread ts) :
    Follows (t :: ts) := by
  refine ⟨List.isChain_cons.2 ⟨fun u _ hword => ?_, h⟩, by simpa using ht⟩
  rw [ht] at hword
  cases hword

theorem follows_itemTokens {vs : List Json} {ts : List Token} (hts : Follows ts)
    (hvs : ∀ v ∈ vs, ∀ us, Follows us → Spread (v.tokens ++ us)) :
    Follows (itemTokens vs ++ ts) := by
  induction vs with
  | nil => exact follows_cons rfl hts.1
  | cons v vs ih =>
    have hrest := ih fun w hw => hvs w (List.mem_cons_of_mem _ hw)
    have hv := hvs v List.mem_cons_self _ hrest
    rw [itemTokens, List.cons_append, List.append_assoc]
    exact follows_cons rfl hv

theorem follows_name {k : String} {ts : List Token} (h : Spread ts) :
    Follows (.str k :: .colon :: ts) :=
  follows_cons rfl (follows_cons rfl h).1

theorem follows_memberTokens {ms : List (String × Json)} {ts : List Token} (hts : Follows ts)
    (hms : ∀ m ∈ ms, ∀ us, Follows us → Spread (m.2.tokens ++ us)) :
    Follows (memberTokens ms ++ ts) := by
  induction ms with
  | nil => exact follows_cons rfl hts.1
  | cons m ms ih =>
    obtain ⟨k, v⟩ := m
    have hrest := ih fun w hw => hms w (List.mem_cons_of_mem _ hw)
    have hv := hms (k, v) List.mem_cons_self _ hrest
    simp only [memberTokens, List.cons_append, List.append_assoc]
    exact follows_cons rfl (follows_name hv).1

/-- The words of a value are spread, whatever follows it. -/
theorem spread_tokens_append {depth : Nat} {v : Json} (h : Within depth v) :
    ∀ ts, Follows ts → Spread (v.tokens ++ ts) := by
  induction h with
  | null => exact fun ts hts => hts.cons
  | bool b => exact fun ts hts => hts.cons
  | num n => exact fun ts hts => hts.cons
  | str s => exact fun ts hts => hts.cons
  | @arr _ items _ ih =>
    intro ts hts
    cases items with
    | nil => exact (follows_cons rfl (follows_cons rfl hts.1).1).1
    | cons v vs =>
      have hrest := follows_itemTokens hts fun w hw => ih w (List.mem_cons_of_mem _ hw)
      rw [tokens, List.cons_append, List.append_assoc]
      exact (follows_cons rfl (ih v List.mem_cons_self _ hrest)).1
  | @obj _ members _ ih =>
    intro ts hts
    cases members with
    | nil => exact (follows_cons rfl (follows_cons rfl hts.1).1).1
    | cons m ms =>
      obtain ⟨k, v⟩ := m
      have hrest := follows_memberTokens hts fun n hn => ih n (List.mem_cons_of_mem _ hn)
      simp only [tokens, List.cons_append, List.append_assoc]
      exact (follows_cons rfl (follows_name (ih (k, v) List.mem_cons_self _ hrest)).1).1

theorem spread_tokens {depth : Nat} {v : Json} (h : Within depth v) : Spread v.tokens := by
  have hend : Follows [] := ⟨.nil, by simp⟩
  simpa using spread_tokens_append h [] hend

end LiveScene.Json
