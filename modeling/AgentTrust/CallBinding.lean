import AgentTrust.OrderedDict

/-! How the arguments of a call are bound to the parameters of a function: positional ones
in order, then those given by keyword, then defaults; what is left goes to `*args` and
`**kwargs`, or there is no binding. Names and values are arbitrary. -/

namespace AgentTrust.CallBinding

open OrderedDict

section Binding

variable {N V : Type}

structure Parameter (N V : Type) where
  name : N
  keyword : Bool
  default : Option V

/-- The parameters of a function, with distinct names. Those after `*args` or a bare `*`
can be given by keyword and not by position. -/
structure Signature (N V : Type) where
  positional : List (Parameter N V)
  keywordOnly : List (Parameter N V)
  varPositional : Bool
  varKeyword : Bool
  byKeyword : ∀ p ∈ keywordOnly, p.keyword
  distinct : ((positional ++ keywordOnly).map Parameter.name).Nodup

/-- The parameters of a function without `*args`, `**kwargs` and a bare `*`. -/
def Signature.ofParameters (ps : List (Parameter N V))
    (distinct : (ps.map Parameter.name).Nodup) : Signature N V where
  positional := ps
  keywordOnly := []
  varPositional := false
  varKeyword := false
  byKeyword := by simp
  distinct := by rwa [List.append_nil]

structure Arguments (N V : Type) where
  args : List V
  kwargs : Dict N V

structure Binding (N V : Type) where
  named : List (N × V)
  extraArgs : List V
  extraKwargs : Dict N V

variable [DecidableEq N]

def Parameter.given (kwargs : Dict N V) (p : Parameter N V) : Option V :=
  (if p.keyword then kwargs.get p.name else none).or p.default

/-- The values of parameters in order. One that a positional argument reaches is not given
by keyword as well. -/
def fill (kwargs : Dict N V) : List (Parameter N V) → List V → Option (List (N × V))
  | [], _ => some []
  | p :: ps, v :: vs =>
    if p.keyword ∧ (kwargs.get p.name).isSome then none
    else (fill kwargs ps vs).map fun rest => (p.name, v) :: rest
  | p :: ps, [] =>
    (p.given kwargs).bind fun v => (fill kwargs ps []).map fun rest => (p.name, v) :: rest

def Signature.parameters (s : Signature N V) : List (Parameter N V) :=
  s.positional ++ s.keywordOnly

def Signature.takes (s : Signature N V) (k : N) : Bool :=
  s.parameters.any fun p => p.keyword && p.name = k

def Signature.extra (s : Signature N V) (kwargs : Dict N V) : Dict N V :=
  kwargs.filter fun k _ => !s.takes k

/-- `none` is the `TypeError` of a call that does not fit. -/
def Signature.bind (s : Signature N V) (a : Arguments N V) : Option (Binding N V) :=
  if s.positional.length < a.args.length ∧ ¬ s.varPositional then none
  else if ¬ (s.extra a.kwargs).entries.isEmpty ∧ ¬ s.varKeyword then none
  else do
    let positional ← fill a.kwargs s.positional a.args
    let keywordOnly ← fill a.kwargs s.keywordOnly []
    return ⟨positional ++ keywordOnly, a.args.drop s.positional.length, s.extra a.kwargs⟩

def Binding.get (b : Binding N V) (k : N) : Option V := lookup k b.named

end Binding

section Filling

variable {N V : Type} [DecidableEq N] {kwargs : Dict N V} {ps qs : List (Parameter N V)}
  {xs : List (N × V)}

theorem fill_append (ps qs : List (Parameter N V)) :
    fill kwargs (ps ++ qs) [] =
      (fill kwargs ps []).bind fun xs => (fill kwargs qs []).map fun ys => xs ++ ys := by
  induction ps with
  | nil => simp [fill]
  | cons p ps ih =>
    rw [List.cons_append, fill, fill, ih]
    cases p.given kwargs <;> cases fill kwargs ps [] <;> cases fill kwargs qs [] <;> rfl

theorem fill_congr {others : Dict N V} (same : ∀ p ∈ ps, p.given kwargs = p.given others) :
    fill kwargs ps [] = fill others ps [] := by
  induction ps with
  | nil => rfl
  | cons p ps ih =>
    obtain ⟨first, rest⟩ := List.forall_mem_cons.mp same
    rw [fill, fill, first, ih rest]

theorem lookup_fill (distinct : (ps.map Parameter.name).Nodup)
    (filled : fill kwargs ps [] = some xs) {p : Parameter N V} (hp : p ∈ ps) :
    lookup p.name xs = p.given kwargs := by
  induction ps generalizing xs with
  | nil => simp at hp
  | cons q ps ih =>
    obtain ⟨fresh, rest⟩ := List.nodup_cons.mp distinct
    rw [fill] at filled
    obtain ⟨v, value, filled⟩ := Option.bind_eq_some_iff.mp filled
    obtain ⟨ys, tail, rfl⟩ := Option.map_eq_some_iff.mp filled
    rw [lookup_cons]
    rcases List.mem_cons.mp hp with rfl | member
    · rw [if_pos rfl, value]
    · have other : q.name ≠ p.name := fun same => fresh (same ▸ List.mem_map_of_mem member)
      rw [if_neg other, ih rest tail member]

end Filling

section Calls

variable {N V : Type} [DecidableEq N] {s : Signature N V} {kwargs : Dict N V} {b : Binding N V}

theorem bind_eq_some {a : Arguments N V} : s.bind a = some b ↔
    (a.args.length ≤ s.positional.length ∨ s.varPositional) ∧
    ((s.extra a.kwargs).entries = [] ∨ s.varKeyword) ∧
    ∃ positional keywordOnly, fill a.kwargs s.positional a.args = some positional ∧
      fill a.kwargs s.keywordOnly [] = some keywordOnly ∧
      ⟨positional ++ keywordOnly, a.args.drop s.positional.length, s.extra a.kwargs⟩ = b := by
  unfold Signature.bind
  split
  · next many =>
    refine iff_of_false (by simp) ?_
    rintro ⟨few | var, _⟩
    · omega
    · exact many.2 var
  · next fits =>
    split
    · next unknown =>
      refine iff_of_false (by simp) ?_
      rintro ⟨_, none | var, _⟩
      · exact unknown.1 (by simp [none])
      · exact unknown.2 var
    · next known =>
      simp only [not_and, not_not] at fits known
      have enough : a.args.length ≤ s.positional.length ∨ s.varPositional :=
        (Nat.lt_or_ge _ _).symm.imp id fits
      have taken : (s.extra a.kwargs).entries = [] ∨ s.varKeyword := by
        by_cases none : (s.extra a.kwargs).entries = []
        · exact .inl none
        · exact .inr (known (by simpa using none))
      rw [and_iff_right enough, and_iff_right taken]
      simp only [Option.bind_eq_bind, Option.bind_eq_some_iff, Option.pure_def, Option.some.injEq]
      constructor
      · rintro ⟨xs, positional, ys, keywordOnly, rfl⟩
        exact ⟨xs, ys, positional, keywordOnly, rfl⟩
      · rintro ⟨xs, ys, positional, keywordOnly, rfl⟩
        exact ⟨xs, positional, ys, keywordOnly, rfl⟩

theorem bind_first_inj {x y : V} {args : List V} (hx : s.bind ⟨x :: args, kwargs⟩ = some b)
    (hy : s.bind ⟨y :: args, kwargs⟩ = some b) : x = y := by
  obtain ⟨_, _, xs, xk, fx, kx, rfl⟩ := bind_eq_some.mp hx
  obtain ⟨_, _, ys, yk, fy, ky, same⟩ := bind_eq_some.mp hy
  obtain rfl := Option.some.inj (kx.symm.trans ky)
  have parts := Binding.mk.inj same
  cases slots : s.positional with
  | nil =>
    have rest := parts.2.1
    simp only [slots, List.length_nil, List.drop_zero, List.cons.injEq] at rest
    exact rest.1.symm
  | cons p ps =>
    rw [slots, fill] at fx fy
    split at fx
    · simp at fx
    · next free =>
      rw [if_neg free] at fy
      obtain ⟨vs, _, rfl⟩ := Option.map_eq_some_iff.mp fx
      obtain ⟨us, _, rfl⟩ := Option.map_eq_some_iff.mp fy
      have heads := (List.cons.inj parts.1).1
      exact (Prod.mk.inj heads).2.symm

theorem bind_keywords : s.bind ⟨[], kwargs⟩ = some b ↔
    ((s.extra kwargs).entries = [] ∨ s.varKeyword) ∧
    ∃ named, fill kwargs s.parameters [] = some named ∧ ⟨named, [], s.extra kwargs⟩ = b := by
  rw [bind_eq_some, Signature.parameters, fill_append]
  simp only [List.length_nil, Nat.zero_le, true_or, true_and, List.drop_nil,
    Option.bind_eq_some_iff, Option.map_eq_some_iff]
  refine and_congr_right fun _ => ?_
  constructor
  · rintro ⟨xs, ys, positional, keywordOnly, rfl⟩
    exact ⟨_, ⟨xs, positional, ys, keywordOnly, rfl⟩, rfl⟩
  · rintro ⟨_, ⟨xs, positional, ys, keywordOnly, rfl⟩, rfl⟩
    exact ⟨xs, ys, positional, keywordOnly, rfl⟩

theorem get_bind_keywords (bound : s.bind ⟨[], kwargs⟩ = some b) {p : Parameter N V}
    (hp : p ∈ s.parameters) : b.get p.name = p.given kwargs := by
  obtain ⟨_, named, filled, rfl⟩ := bind_keywords.mp bound
  exact lookup_fill s.distinct filled hp

theorem takes_iff {k : N} :
    s.takes k ↔ ∃ p ∈ s.parameters, p.keyword = true ∧ p.name = k := by
  simp [Signature.takes]

/-- A keyword argument that writes into a call without positional ones leaves the binding
alone if it is the value the binding has. -/
theorem bind_set_keyword {k : N} {v : V} (bound : s.bind ⟨[], kwargs⟩ = some b)
    (written : s.bind ⟨[], kwargs.set k v⟩ = some b) :
    kwargs.get k = some v ∨ kwargs.get k = none ∧ s.takes k ∧ b.get k = some v := by
  by_cases takes : s.takes k
  · obtain ⟨p, member, keyword, rfl⟩ := takes_iff.mp takes
    have before := get_bind_keywords bound member
    have after := get_bind_keywords written member
    rw [Parameter.given, if_pos keyword] at before after
    rw [Dict.get_set_self, Option.some_or] at after
    cases given : kwargs.get p.name with
    | none => exact .inr ⟨rfl, takes, after⟩
    | some u =>
      rw [given, Option.some_or, after] at before
      exact .inl before.symm
  · have extra : (s.extra kwargs).get k = (s.extra (kwargs.set k v)).get k := by
      obtain ⟨_, _, _, rfl⟩ := bind_keywords.mp bound
      obtain ⟨_, _, _, same⟩ := bind_keywords.mp written
      rw [(Binding.mk.inj same).2.2]
    have kept : ∀ d : Dict N V, (s.extra d).get k = d.get k := fun d => by
      rw [Signature.extra, Dict.get_filter]
      cases d.get k <;> simp [takes]
    rw [kept, kept, Dict.get_set_self] at extra
    exact .inl extra

theorem bind_set_default {k : N} {v : V} (bound : s.bind ⟨[], kwargs⟩ = some b)
    (absent : kwargs.get k = none) (takes : s.takes k) (default : b.get k = some v) :
    s.bind ⟨[], kwargs.set k v⟩ = some b := by
  have extra : s.extra (kwargs.set k v) = s.extra kwargs :=
    Dict.filter_set (fun _ => by rw [takes]; rfl) kwargs
  have given : ∀ p ∈ s.parameters, p.given (kwargs.set k v) = p.given kwargs := by
    intro p member
    have value := get_bind_keywords bound member
    by_cases same : p.name = k
    · subst same
      unfold Parameter.given at value ⊢
      cases p.keyword with
      | true => simpa [absent, default] using value
      | false => rfl
    · unfold Parameter.given
      rw [Dict.get_set_other _ (Ne.symm same)]
  obtain ⟨known, named, filled, same⟩ := bind_keywords.mp bound
  refine bind_keywords.mpr ⟨by rw [extra]; exact known, named, ?_, by rw [extra]; exact same⟩
  rw [fill_congr given]
  exact filled

end Calls

end AgentTrust.CallBinding
