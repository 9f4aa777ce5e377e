import MatchTape.CommandLine.Arguments

/-!
# Reading spelled arguments

Options that are spelled with each value in an argument of its own are read back as they are,
unless a value looks like an option or is not valid; names are read back behind two dashes, and
without these if they look like names.
-/

namespace MatchTape.CommandLine

def Key.argument : Key → String
  | recordings => "--replay-dir"
  | jobs => "-j"
  | checkpoints => "--save-dir"
  | saveFrame => "--save-at-frame"
  | saveName => "--save-to"
  | loadName => "--load-checkpoint"
  | frames => "--frames"
  | seed => "--seed"
  | players => "--players"
  | map => "--map"
  | interval => "--crc-interval"

def spell (values : List (Key × String)) : List String :=
  values.flatMap fun (key, value) => [key.argument, value]

def nameArguments (apart : Bool) (names : List String) : List String :=
  if apart then "--" :: names else names

def optional (key : Key) (value : Option String) : List (Key × String) :=
  value.toList.map (key, ·)

/-- A value that can stand in an argument of its own: it is valid and does not look like an
option. -/
def canStand (key : Key) (value : String) : Bool :=
  shapeOf value == .name && isValid key value

/-- Names that are read as names without two dashes in front: none looks like an option, and the
first is no command. -/
structure LookLikeNames (names : List String) : Prop where
  shape : ∀ name ∈ names, shapeOf name = .name
  first : ∀ first ∈ names.head?, isCommand first = false

def outerKeys : List Key :=
  outerLevel.options.map Prod.snd

variable {found : Found} {names : List String} {values : List (Key × String)} {key : Key}
  {apart : Bool}

/-! ## Options that may be left out -/

theorem keys_optional (key : Key) (value : Option String) :
    ((optional key value).map Prod.fst).Sublist [key] := by
  cases value with
  | none => exact List.nil_sublist [key]
  | some value => exact List.Sublist.refl [key]

theorem lookup_optional (key other : Key) (value : Option String) :
    (optional other value).lookup key = if key = other then value else none := by
  cases value with
  | none => exact (ite_self none).symm
  | some value =>
      by_cases same : key = other
      · rw [if_pos same, same]
        exact List.lookup_cons_self
      · rw [if_neg same, optional, Option.toList_some, List.map_singleton, List.lookup_cons,
          beq_false_of_ne same]
        rfl

/-- If the value that is meant without the option can stand, so can all if the one that is meant
does. -/
theorem all_canStand_optional {fallback : String} (stands : canStand key fallback = true)
    (value : Option String) :
    ((optional key value).all fun pair => canStand pair.1 pair.2) =
      canStand key (value.getD fallback) := by
  cases value with
  | none => exact stands.symm
  | some value => exact Bool.and_true _

/-! ## Reading -/

theorem has_eq_true_iff : found.has key = true ↔ key ∈ found.values.map Prod.fst := by
  rw [Found.has, Found.value?, List.lookup_isSome_iff, List.mem_map]
  constructor
  · rintro ⟨pair, member, same⟩
    exact ⟨pair, member, (eq_of_beq same).symm⟩
  · rintro ⟨pair, member, rfl⟩
    exact ⟨pair, member, beq_self_eq_true pair.1⟩

theorem scan_argument (outer : key ∈ outerKeys) (found : Found) (rest : List String) :
    outerLevel.scan none true found (key.argument :: rest) =
      outerLevel.scan (some key) true found rest := by
  cases key with
  | recordings | jobs | checkpoints | saveFrame | saveName | loadName => rfl
  | frames | seed | players | map | interval => exact absurd outer (by decide)

theorem scan_value (fresh : found.has key = false) (value : String) (rest : List String) :
    outerLevel.scan (some key) true found (value :: rest) =
      if canStand key value then
        outerLevel.scan none true { found with values := found.values ++ [(key, value)] } rest
      else .error .usage := by
  rw [Level.scan, Found.accept, fresh, canStand]
  by_cases name : shapeOf value = .name
  · cases valid : isValid key value with
    | true => simp [name, bind, Except.bind]
    | false => simp [name, bind, Except.bind]
  · simp [name]

/-- Options that are spelled are read back if all of their values can stand. -/
theorem scan_spell (outer : ∀ pair ∈ values, pair.1 ∈ outerKeys)
    (once : ((found.values ++ values).map Prod.fst).Nodup) (rest : List String) :
    outerLevel.scan none true found (spell values ++ rest) =
      if values.all fun pair => canStand pair.1 pair.2 then
        outerLevel.scan none true { found with values := found.values ++ values } rest
      else .error .usage := by
  induction values generalizing found with
  | nil =>
      rw [List.append_nil]
      rfl
  | cons pair values ih =>
      obtain ⟨key, value⟩ := pair
      obtain ⟨first, others⟩ := List.forall_mem_cons.mp outer
      have fresh : found.has key = false := by
        rw [Bool.eq_false_iff, ne_eq, has_eq_true_iff]
        rw [List.map_append, List.nodup_append] at once
        exact fun given => once.2.2 _ given _ List.mem_cons_self rfl
      rw [List.append_cons] at once
      change outerLevel.scan none true found (key.argument :: value :: (spell values ++ rest)) = _
      rw [scan_argument first, scan_value fresh, List.all_cons]
      cases canStand key value with
      | false => rfl
      | true =>
          rw [if_pos rfl, ih others once, List.append_assoc]
          rfl

theorem foldlM_takeName (names : List String) (found : Found) :
    names.foldlM outerLevel.takeName found =
      .ok { found with names := found.names ++ names } := by
  induction names generalizing found with
  | nil =>
      rw [List.append_nil]
      rfl
  | cons name names ih =>
      change names.foldlM outerLevel.takeName { found with names := found.names ++ [name] } = _
      rw [ih, List.append_assoc]
      rfl

/-- Names that look like names are read like names behind two dashes. -/
theorem scan_names {fresh : Bool} (shape : ∀ name ∈ names, shapeOf name = .name)
    (first : fresh = true → ∀ first ∈ names.head?, isCommand first = false) (found : Found) :
    outerLevel.scan none fresh found names = names.foldlM outerLevel.takeName found := by
  induction names generalizing found fresh with
  | nil => rfl
  | cons name names ih =>
      obtain ⟨plain, others⟩ := List.forall_mem_cons.mp shape
      have noCommand : (fresh && outerLevel.hasCommands && isCommand name) = false := by
        cases fresh with
        | false => rfl
        | true => rw [first rfl name rfl, Bool.and_false]
      have later := @ih false others nofun { found with names := found.names ++ [name] }
      rw [Level.scan, noCommand, plain]
      exact later

theorem scan_nameArguments (look : apart = false → LookLikeNames names) (found : Found) :
    outerLevel.scan none true found (nameArguments apart names) =
      .ok { found with names := found.names ++ names } := by
  cases apart with
  | false =>
      obtain ⟨shape, first⟩ := look rfl
      exact (scan_names shape (fun _ => first) found).trans (foldlM_takeName names found)
  | true => exact foldlM_takeName names found

/-- What spelled options and names ask for. -/
theorem parse_spell (outer : ∀ pair ∈ values, pair.1 ∈ outerKeys)
    (once : (values.map Prod.fst).Nodup) (look : apart = false → LookLikeNames names) :
    parse (spell values ++ nameArguments apart names) =
      if (values.all fun pair => canStand pair.1 pair.2) &&
          Found.isConsistent { values, names } then
        .ok (.play (Found.playRequest { values, names }))
      else .error .usage := by
  have fresh : ((Found.values {} ++ values).map Prod.fst).Nodup := once
  rw [parse, scan_spell outer fresh]
  cases values.all fun pair => canStand pair.1 pair.2 with
  | false => rfl
  | true =>
      rw [if_pos rfl, scan_nameArguments look]
      rfl

end MatchTape.CommandLine
