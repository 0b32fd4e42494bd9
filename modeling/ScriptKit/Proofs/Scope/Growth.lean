import ScriptKit.Proofs.Scope.Names

/-!
# Growing scopes

Whatever is done to the variables of a chain, the frames stay what they are apart from their values, and only the
first one can gain variables. The header of a frame is what is left of it without the values: whether it is the
root, and the names with their declared types.

`Chain.Gains new c c'` says that `c'` is `c` with the declarations `new` on top of the first frame, the latest
first. They are of names that were not visible in `c`, and no name is declared twice.
-/

namespace ScriptKit

open Check (Names)

/-! ## Headers -/

/-- The declarations of a frame, the latest first. -/
def Frame.signature (f : Frame) : List (Text × VarType) := f.vars.map fun (name, v) => (name, v.type)

/-- A frame without its values. -/
structure Header where
  isRoot : Bool
  signature : List (Text × VarType)
  deriving DecidableEq, Repr

/-- A frame without its values. -/
def Frame.header (f : Frame) : Header := ⟨f.isRoot, f.signature⟩

theorem Frame.signature_names (f : Frame) : f.signature.map Prod.fst = f.vars.map Prod.fst := by
  simp only [Frame.signature, List.map_map]
  rfl

theorem Frame.signature_update (f : Frame) (name : Text) (value : Option Value) :
    (f.update name value).signature = f.signature := by
  simp only [Frame.signature, Frame.update, List.map_map]
  refine List.map_congr_left fun entry _ => ?_
  obtain ⟨key, v⟩ := entry
  by_cases hkey : key = name <;> simp [hkey]

namespace Chain

variable {c c' c'' : Chain} {f : Frame} {name : Text} {new new' : List (Text × VarType)}

/-- A chain without its values. -/
def headers (c : Chain) : List Header := c.map Frame.header

theorem names_eq_headers (c : Chain) : c.names = c.headers.map fun o => o.signature.map Prod.fst := by
  simp only [Chain.names, headers, List.map_map]
  exact List.map_congr_left fun f _ => (Frame.signature_names f).symm

theorem headers_update (c : Chain) (name : Text) (value : Option Value) :
    (c.update name value).headers = c.headers := by
  have hframe : ∀ f : Frame, (f.update name value).header = f.header := fun f =>
    congrArg (Header.mk f.isRoot) (f.signature_update name value)
  induction c with
  | nil => rfl
  | cons f outer ih =>
    unfold Chain.update
    split
    · exact congrArg (· :: Chain.headers outer) (hframe f)
    · exact congrArg (f.header :: ·) ih

/-- A name that is free is in none of the frames. -/
theorem has_of_find (h : c.find name = .error .notFound) : c.names.has name = false := by
  induction c with
  | nil => rfl
  | cons f outer ih =>
    unfold Chain.find at h
    cases hf : f.lookup name with
    | some v =>
      rw [hf] at h
      cases h
    | none =>
      rw [hf] at h
      dsimp only at h
      split at h
      · cases h
      · show ((f.vars.map Prod.fst).contains name || Names.has (Chain.names outer) name) = false
        rw [contains_of_lookup, hf, ih h]
        rfl

/-! ## Gaining variables -/

/-- More declarations on top of the first frame. -/
def grow (new : List (Text × VarType)) : List Header → List Header
  | [] => []
  | o :: outer => { o with signature := new ++ o.signature } :: outer

theorem grow_nil (os : List Header) : grow [] os = os := by
  cases os with
  | nil => rfl
  | cons o outer => rfl

theorem grow_grow (os : List Header) : grow new' (grow new os) = grow (new' ++ new) os := by
  cases os with
  | nil => rfl
  | cons o outer => simp [grow, List.append_assoc]

/-- The second chain is the first one with new declarations on top of the first frame. -/
structure Gains (new : List (Text × VarType)) (c c' : Chain) : Prop where
  headers : c'.headers = grow new c.headers
  /-- Without a frame there is nowhere to declare. -/
  holder : c = [] → new = []
  distinct : (new.map Prod.fst).Nodup
  free : ∀ d ∈ new, c.names.has d.1 = false

theorem Gains.same (h : c'.headers = c.headers) : Gains [] c c' :=
  ⟨h.trans (grow_nil _).symm, fun _ => rfl, List.nodup_nil, by simp⟩

theorem Gains.refl (c : Chain) : Gains [] c c := .same rfl

/-- What is visible in the grown chain. -/
theorem Gains.has (h : Gains new c c') (hne : c ≠ []) (name : Text) :
    c'.names.has name = ((new.map Prod.fst).contains name || c.names.has name) := by
  rw [names_eq_headers, names_eq_headers, h.headers]
  cases c with
  | nil => exact absurd rfl hne
  | cons f outer =>
    simp only [Chain.headers, List.map_cons, grow, Names.has, List.any_cons, List.map_append]
    rw [List.contains_append, Bool.or_assoc]

theorem Gains.trans (h : Gains new c c') (h' : Gains new' c' c'') : Gains (new' ++ new) c c'' := by
  by_cases hne : c = []
  · have hc' : c' = [] := by
      have hheaders := h.headers
      rw [hne] at hheaders
      exact List.map_eq_nil_iff.1 hheaders
    rw [h.holder hne, h'.holder hc']
    exact .same (by rw [h'.headers, h.headers, h.holder hne, h'.holder hc', grow_nil, grow_nil])
  · have hfree : ∀ d ∈ new', d.1 ∉ new.map Prod.fst ∧ c.names.has d.1 = false := by
      intro d hd
      have hd := h'.free d hd
      rw [h.has hne, Bool.or_eq_false_iff] at hd
      exact ⟨by simpa using hd.1, hd.2⟩
    refine ⟨by rw [h'.headers, h.headers, grow_grow], fun hnil => absurd hnil hne, ?_, ?_⟩
    · rw [List.map_append]
      refine List.nodup_append.2 ⟨h'.distinct, h.distinct, ?_⟩
      rintro name hname' _ hname rfl
      obtain ⟨d, hd, rfl⟩ := List.mem_map.1 hname'
      exact (hfree d hd).1 hname
    · intro d hd
      rcases List.mem_append.1 hd with hd | hd
      · exact (hfree d hd).2
      · exact h.free d hd

theorem Gains.assign {value : Option Value} (h : c.assign name value = .ok c') : Gains [] c c' := by
  unfold Chain.assign at h
  split at h
  · cases h
    exact .same (headers_update c name value)
  · cases h

/-- A declaration goes into the first frame, and its name was free. -/
theorem Gains.declare {type : VarType} {value : Option Value} (h : c.declare name type value = .ok c') :
    Gains [(name, type)] c c' := by
  unfold Chain.declare at h
  split at h
  · cases h
  · next f outer hfind =>
    cases h
    refine ⟨rfl, fun hnil => (nomatch hnil), by simp, fun d hd => ?_⟩
    obtain rfl := List.mem_singleton.1 hd
    exact has_of_find hfind
  · cases h

/-- What is gained in a frame of its own is gone with it. -/
theorem Gains.pop (h : Gains new (f :: c) c') : Gains [] c c'.tail :=
  .same (by
    show c'.tail.map Frame.header = Chain.headers c
    rw [List.map_tail]
    exact congrArg List.tail h.headers)

theorem Gains.length_eq (h : Gains new c c') : c'.length = c.length := by
  have hlength := congrArg List.length h.headers
  cases c with
  | nil => simpa [Chain.headers, grow] using hlength
  | cons f outer => simpa [Chain.headers, grow] using hlength

/-- What was an empty frame has what was gained. -/
theorem Gains.head (h : Gains new ({} :: c) c') : Frame.header (c'.head?.getD {}) = ⟨false, new⟩ := by
  have hheaders := h.headers
  cases c' with
  | nil => cases hheaders
  | cons f outer => exact (List.cons.inj hheaders).1.trans (congrArg (Header.mk false) (List.append_nil new))

/-- A chain that has the root alone still has it alone, with what it has gained. -/
theorem Gains.single (h : Gains new c c') (hc : c = [.root]) : Frame.header (c'.getLast?.getD .root) = ⟨true, new⟩ := by
  subst hc
  obtain ⟨f, rfl⟩ := List.length_eq_one_iff.1 h.length_eq
  have hheaders := List.singleton_inj.1 h.headers
  rw [List.getLast?_singleton, Option.getD_some, hheaders]
  exact congrArg (Header.mk true) (List.append_nil new)

end Chain

end ScriptKit
