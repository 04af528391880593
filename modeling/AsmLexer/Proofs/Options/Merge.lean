import AsmLexer.Proofs.Options.Entry
import AsmLexer.Proofs.Run

/-!
# Merging options

Options come from a configuration and from a command line. The kinds of both are skipped, and the
limit of the command line goes before that of the configuration. `Options.Admissible` says when
there are options, `Options.Merges` which ones, and `Options.FirstFault` what is reported otherwise:
the first entry of the configuration that names no kind, else the first such name of the command
line, else a limit below zero. One of the two comes of every configuration and every command line
(`merge_settles`).
-/

set_option autoImplicit false

namespace AsmLexer

/-! ## The first failure in a list -/

/-- The first element of a list that does not have a property. -/
def FirstWithout {α : Type} (good : α → Prop) (xs : List α) (x : α) : Prop :=
  ∃ before after, xs = before ++ x :: after ∧ (∀ y ∈ before, good y) ∧ ¬ good x

section

variable {ε α β : Type} {f : α → Except ε β} {xs : List α}

/-- With a first element that fails, not all are good. -/
theorem FirstWithout.not_forall {good : α → Prop} {x : α} (h : FirstWithout good xs x) :
    ¬ ∀ y ∈ xs, good y := by
  obtain ⟨before, after, rfl, -, hbad⟩ := h
  intro hall
  exact hbad (hall x (List.mem_append_right _ List.mem_cons_self))

/-- What is found of the elements of a list, if it is found of each. -/
theorem mapM_eq_ok {ys : List β} (h : xs.mapM f = .ok ys) : xs.map f = ys.map .ok := by
  induction xs generalizing ys with
  | nil =>
    cases h
    rfl
  | cons x xs ih =>
    rw [List.mapM_cons] at h
    obtain ⟨y, hy, h⟩ := exists_of_bind_eq_ok h
    obtain ⟨more, hmore, h⟩ := exists_of_bind_eq_ok h
    cases h
    rw [List.map_cons, hy, ih hmore, List.map_cons]

/-- The results are those of the elements. -/
theorem mem_of_mapM_eq_ok {ys : List β} (h : xs.mapM f = .ok ys) {y : β} :
    y ∈ ys ↔ ∃ x ∈ xs, f x = .ok y := by
  have hmem : (.ok y : Except ε β) ∈ xs.map f ↔ .ok y ∈ ys.map (.ok : β → Except ε β) := by
    rw [mapM_eq_ok h]
  simpa using hmem.symm

/-- If there are results, each element has one. -/
theorem exists_ok_of_mapM_eq_ok {ys : List β} (h : xs.mapM f = .ok ys) :
    ∀ x ∈ xs, ∃ y, f x = .ok y := by
  intro x hx
  have hmem : f x ∈ ys.map .ok := by
    rw [← mapM_eq_ok h]
    exact List.mem_map_of_mem hx
  obtain ⟨y, -, hy⟩ := List.mem_map.mp hmem
  exact ⟨y, hy.symm⟩

/-- A list fails by the first of its elements that does. -/
theorem exists_of_mapM_eq_error {e : ε} (h : xs.mapM f = .error e) :
    ∃ x, FirstWithout (fun x => ∃ y, f x = .ok y) xs x ∧ f x = .error e := by
  induction xs with
  | nil => cases h
  | cons x xs ih =>
    rw [List.mapM_cons] at h
    cases hx : f x with
    | error e' =>
      rw [hx] at h
      cases h
      refine ⟨x, ⟨[], xs, rfl, List.forall_mem_nil _, ?_⟩, hx⟩
      rintro ⟨y, hy⟩
      rw [hx] at hy
      cases hy
    | ok y =>
      rw [hx] at h
      cases hmore : xs.mapM f with
      | ok ys =>
        rw [hmore] at h
        cases h
      | error e' =>
        rw [hmore] at h
        cases h
        obtain ⟨bad, ⟨before, after, rfl, hgood, hbad⟩, he⟩ := ih hmore
        exact ⟨bad, ⟨x :: before, after, rfl, List.forall_mem_cons.mpr ⟨⟨y, hx⟩, hgood⟩, hbad⟩, he⟩

end

/-! ## What a configuration says -/

namespace Toml.Table

/-- A value that a document has for a key of one of its tables. -/
def Holds (config : Table) (table key : String) (value : Value) : Prop :=
  ∃ entries, config.get? table = some (.table entries) ∧ Table.get? entries key = some value

/-- The entries of a document that say which kinds are skipped. What is no list is ignored. -/
inductive Skips (config : Table) : List Value → Prop where
  | listed {items : List Value} : config.Holds "output" "skip" (.array items) → Skips config items
  | ignored : (∀ items, ¬ config.Holds "output" "skip" (.array items)) → Skips config []

/-- The error limit of a document. What is neither a whole number nor a truth value is ignored. -/
inductive Limits (config : Table) : Int → Prop where
  | number {n : Int} : config.Holds "errors" "max" (.integer n) → Limits config n
  | truth {b : Bool} : config.Holds "errors" "max" (.truth b) → Limits config (if b then 1 else 0)
  | ignored : (∀ n, ¬ config.Holds "errors" "max" (.integer n)) →
    (∀ b, ¬ config.Holds "errors" "max" (.truth b)) → Limits config 0

variable {config : Table}

/-- What is looked up is what the document holds. -/
theorem configValue?_eq_some_iff {table key : String} {value : Value} :
    configValue? config table key = some value ↔ config.Holds table key value := by
  unfold configValue? Holds
  split
  · rename_i entries htable
    simp [htable]
  · rename_i htable
    constructor
    · intro h
      cases h
    · rintro ⟨entries, hentries, -⟩
      exact absurd hentries (htable entries)

/-- Two values of one key are the same. -/
theorem Holds.unique {table key : String} {value other : Value} (h : config.Holds table key value)
    (hother : config.Holds table key other) : value = other := by
  rw [← configValue?_eq_some_iff] at h hother
  exact Option.some.inj (h.symm.trans hother)

/-- A document skips the entries that are read off it, and no others. -/
theorem skips_iff {entries : List Value} : config.Skips entries ↔ entries = configSkip config := by
  unfold configSkip
  split
  · rename_i items hvalue
    rw [configValue?_eq_some_iff] at hvalue
    constructor
    · rintro (⟨hitems⟩ | ⟨hnone⟩)
      · exact Value.array.inj (hitems.unique hvalue)
      · exact absurd hvalue (hnone items)
    · rintro rfl
      exact .listed hvalue
  · rename_i hvalue
    simp only [configValue?_eq_some_iff] at hvalue
    constructor
    · rintro (⟨hitems⟩ | -)
      · exact absurd hitems (hvalue _)
      · rfl
    · rintro rfl
      exact .ignored hvalue

/-- The limit that is read off a document is the one that it sets. -/
theorem limits_configLimit (config : Table) : config.Limits (configLimit config) := by
  unfold configLimit
  cases hlimit : (configValue? config "errors" "max").bind Value.integer? with
  | none =>
    have hnone (value : Value) (h : config.Holds "errors" "max" value) :
        value.integer? = none := by
      rw [← configValue?_eq_some_iff] at h
      rwa [h] at hlimit
    refine .ignored ?_ ?_
    · intro n h
      cases hnone _ h
    · intro b h
      cases hnone _ h
  | some n =>
    obtain ⟨value, hvalue, hinteger⟩ := Option.bind_eq_some_iff.mp hlimit
    rw [configValue?_eq_some_iff] at hvalue
    cases value with
    | integer m =>
      cases hinteger
      exact .number hvalue
    | truth b =>
      cases hinteger
      exact .truth hvalue
    | text s => cases hinteger
    | real x => cases hinteger
    | moment m => cases hinteger
    | array items => cases hinteger
    | table entries => cases hinteger

end Toml.Table

/-! ## What comes of it -/

/-- The limit that counts: that of the command line, or else the configured one. -/
inductive LimitArgument.Counts (configured : Int) : LimitArgument → Int → Prop where
  | absent : Counts configured .absent configured
  | number (n : Int) : Counts configured (.number n) n

/-- Only one limit counts. -/
theorem LimitArgument.Counts.unique {configured n m : Int} {limit : LimitArgument}
    (h : limit.Counts configured n) (hother : limit.Counts configured m) : n = m := by
  cases h with
  | absent => cases hother; rfl
  | number => cases hother; rfl

namespace Options

/-- A name of the command line that is there and names a kind. -/
def Names (name : Option String) (kind : Kind) : Prop :=
  ∃ s, name = some s ∧ kind.SpelledBy s

section

variable (args : Arguments) (entries : List Toml.Value) (configured : Int)

/-- Whether there are options: every kind is named, and the limit that counts is not negative. -/
structure Admissible : Prop where
  entries : ∀ entry ∈ entries, ∃ kind, entry.Names kind
  names : ∀ name ∈ args.skip, ∃ kind, Names name kind
  limit : ∃ n, args.limit.Counts configured n ∧ 0 ≤ n

/-- Options that merge a command line with the entries and the limit of a configuration. -/
structure Merges (options : Options) : Prop extends options.Take args where
  mem_skip_iff : ∀ kind, kind ∈ options.skip ↔
    (∃ entry ∈ entries, entry.Names kind) ∨ ∃ name ∈ args.skip, Names name kind
  /-- The kinds are in the order of all kinds. -/
  skip_ordered : ∃ asked : Kind → Bool, options.skip = Kind.all.filter asked
  limit_counts : args.limit.Counts configured options.limit

/-- What is reported where there are no options. -/
inductive FirstFault : OptionError → Prop where
  | entry {entry : Toml.Value} {e : OptionError} :
    FirstWithout (fun entry => ∃ kind, entry.Names kind) entries entry → entry.Complaint e →
    FirstFault e
  | name {s : String} : (∀ entry ∈ entries, ∃ kind, entry.Names kind) →
    FirstWithout (fun name => ∃ kind, Names name kind) args.skip (some s) →
    FirstFault (.unknownKind s)
  | missingName : (∀ entry ∈ entries, ∃ kind, entry.Names kind) →
    FirstWithout (fun name => ∃ kind, Names name kind) args.skip none → FirstFault .missingKind
  | negative {n : Int} : (∀ entry ∈ entries, ∃ kind, entry.Names kind) →
    (∀ name ∈ args.skip, ∃ kind, Names name kind) → args.limit.Counts configured n → n < 0 →
    FirstFault (.negativeLimit n)
  | missingLimit : (∀ entry ∈ entries, ∃ kind, entry.Names kind) →
    (∀ name ∈ args.skip, ∃ kind, Names name kind) → args.limit = .blank → FirstFault .missingLimit

/-- What comes of a command line and the entries and the limit of a configuration. -/
structure Settles (result : Except OptionError Options) : Prop where
  ok_iff : (∃ options, result = .ok options) ↔ Admissible args entries configured
  merges : ∀ options, result = .ok options → options.Merges args entries configured
  reports : ∀ e, result = .error e → FirstFault args entries configured e

end

variable {args : Arguments} {config : Toml.Table}

/-- An argument stands for the kind that it names. -/
theorem kindOfArgument_eq_ok_iff {name : Option String} {kind : Kind} :
    kindOfArgument name = .ok kind ↔ Names name kind := by
  cases name with
  | none => simp [kindOfArgument, Names]
  | some s => simp [kindOfArgument, Names, kindNamed_eq_ok_iff]

/-- If all arguments are read, each of them names a kind. -/
theorem exists_names_of_arguments {given : List Kind}
    (h : args.skip.mapM kindOfArgument = .ok given) :
    ∀ name ∈ args.skip, ∃ kind, Names name kind := by
  intro name hname
  obtain ⟨kind, hkind⟩ := exists_ok_of_mapM_eq_ok h name hname
  exact ⟨kind, kindOfArgument_eq_ok_iff.mp hkind⟩

/-- Faults and options exclude each other. -/
theorem FirstFault.not_admissible {entries : List Toml.Value} {configured : Int} {e : OptionError}
    (h : FirstFault args entries configured e) : ¬ Admissible args entries configured := by
  rintro ⟨hentries, hnames, n, hn, hnonneg⟩
  cases h with
  | entry hfirst _ => exact hfirst.not_forall hentries
  | name _ hfirst => exact hfirst.not_forall hnames
  | missingName _ hfirst => exact hfirst.not_forall hnames
  | negative _ _ hcounts hnegative =>
    rw [hn.unique hcounts] at hnonneg
    omega
  | missingLimit _ _ hblank =>
    rw [hblank] at hn
    cases hn

/-! ## Merging in order -/

/-- The first entry that names no kind is reported. -/
theorem merge_of_entries {e : OptionError}
    (h : (configSkip config).mapM kindOfEntry = .error e) :
    merge config args = .error e ∧ FirstFault args (configSkip config) (configLimit config) e := by
  constructor
  · rw [merge, h]
    rfl
  · obtain ⟨entry, hfirst, he⟩ := exists_of_mapM_eq_error h
    simp only [kindOfEntry_eq_ok_iff] at hfirst
    exact .entry hfirst (kindOfEntry_eq_error_iff.mp he).2

section

variable {kinds : List Kind} (hentries : (configSkip config).mapM kindOfEntry = .ok kinds)

include hentries

/-- If all entries are read, each of them names a kind. -/
theorem exists_names_of_entries : ∀ entry ∈ configSkip config, ∃ kind, entry.Names kind := by
  intro entry hentry
  obtain ⟨kind, hkind⟩ := exists_ok_of_mapM_eq_ok hentries entry hentry
  exact ⟨kind, kindOfEntry_eq_ok_iff.mp hkind⟩

/-- If all entries name kinds, the first name of the command line that names none is reported. -/
theorem merge_of_names {e : OptionError} (h : args.skip.mapM kindOfArgument = .error e) :
    merge config args = .error e ∧ FirstFault args (configSkip config) (configLimit config) e := by
  constructor
  · rw [merge, hentries, h]
    rfl
  · obtain ⟨name, hfirst, he⟩ := exists_of_mapM_eq_error h
    simp only [kindOfArgument_eq_ok_iff] at hfirst
    have hgood := exists_names_of_entries hentries
    cases name with
    | none =>
      cases he
      exact .missingName hgood hfirst
    | some s =>
      rw [(kindNamed_eq_error_iff.mp he).2]
      exact .name hgood hfirst

/-- If all kinds are named, it is the limit that decides. -/
theorem merge_of_limit {given : List Kind} {n : Int}
    (hnames : args.skip.mapM kindOfArgument = .ok given)
    (h : args.limit.Counts (configLimit config) n) :
    merge config args = if n < 0 then .error (.negativeLimit n) else .ok {
      input := Path.ofString args.input
      output := givenPath args.output
      skip := Kind.all.filter fun kind => (kinds ++ given).contains kind
      limit := n.toNat
      check := args.check
      debug := args.debug } := by
  have hlimit : limitOf (configLimit config) args.limit = .ok n := by
    generalize args.limit = limit at h
    cases h with
    | absent => rfl
    | number => rfl
  rw [merge, hentries, hnames, hlimit]
  rfl

end

/-- Merging ends in the first fault or in options. -/
theorem merge_cases (config : Toml.Table) (args : Arguments) :
    (∃ e, merge config args = .error e ∧
      FirstFault args (configSkip config) (configLimit config) e) ∨
    ∃ options, merge config args = .ok options ∧
      Admissible args (configSkip config) (configLimit config) ∧
      options.Merges args (configSkip config) (configLimit config) := by
  cases hentries : (configSkip config).mapM kindOfEntry with
  | error e => exact .inl ⟨e, merge_of_entries hentries⟩
  | ok kinds =>
    cases hnames : args.skip.mapM kindOfArgument with
    | error e => exact .inl ⟨e, merge_of_names hentries hnames⟩
    | ok given =>
      have hgood := exists_names_of_entries hentries
      have hgiven := exists_names_of_arguments hnames
      by_cases hblank : args.limit = .blank
      · left
        refine ⟨.missingLimit, ?_, .missingLimit hgood hgiven hblank⟩
        rw [merge, hentries, hnames, hblank]
        rfl
      · obtain ⟨n, hn⟩ : ∃ n, args.limit.Counts (configLimit config) n := by
          cases hlimit : args.limit with
          | absent => exact ⟨_, .absent⟩
          | blank => exact absurd hlimit hblank
          | number n => exact ⟨n, .number n⟩
        have hmerge := merge_of_limit hentries hnames hn
        by_cases hnegative : n < 0
        · rw [if_pos hnegative] at hmerge
          exact .inl ⟨_, hmerge, .negative hgood hgiven hn hnegative⟩
        · rw [if_neg hnegative] at hmerge
          refine .inr ⟨_, hmerge, ⟨hgood, hgiven, n, hn, by omega⟩, ?_⟩
          refine ⟨take_of_merge hmerge, ?_, ⟨_, rfl⟩, ?_⟩
          · intro kind
            simp only [List.mem_filter, Kind.mem_all, true_and, List.contains_iff_mem,
              List.mem_append, mem_of_mapM_eq_ok hentries, mem_of_mapM_eq_ok hnames,
              kindOfEntry_eq_ok_iff, kindOfArgument_eq_ok_iff]
          · have hn' : ((n.toNat : Nat) : Int) = n := by omega
            rw [hn']
            exact hn

/-- Of every configuration and command line comes what the two of them settle. -/
theorem settles_merge (config : Toml.Table) (args : Arguments) :
    Settles args (configSkip config) (configLimit config) (merge config args) := by
  obtain ⟨e, hmerge, hfault⟩ | ⟨options, hmerge, hadmissible, hmerges⟩ := merge_cases config args
  · rw [hmerge]
    refine ⟨?_, ?_, ?_⟩
    · constructor
      · rintro ⟨options, h⟩
        cases h
      · intro h
        exact absurd h hfault.not_admissible
    · intro options h
      cases h
    · intro e' h
      cases h
      exact hfault
  · rw [hmerge]
    refine ⟨?_, ?_, ?_⟩
    · constructor
      · intro _
        exact hadmissible
      · intro _
        exact ⟨options, rfl⟩
    · intro options' h
      cases h
      exact hmerges
    · intro e h
      cases h

/-- The kinds that are skipped depend on nothing but which entries and which names there are. -/
theorem Merges.skip_eq {args' : Arguments} {entries entries' : List Toml.Value}
    {configured configured' : Int} {options options' : Options}
    (h : options.Merges args entries configured) (h' : options'.Merges args' entries' configured')
    (hentries : ∀ entry, entry ∈ entries ↔ entry ∈ entries')
    (hnames : ∀ name, name ∈ args.skip ↔ name ∈ args'.skip) : options.skip = options'.skip := by
  have hmem (kind : Kind) : kind ∈ options.skip ↔ kind ∈ options'.skip := by
    rw [h.mem_skip_iff, h'.mem_skip_iff]
    simp only [hentries, hnames]
  obtain ⟨asked, hasked⟩ := h.skip_ordered
  obtain ⟨asked', hasked'⟩ := h'.skip_ordered
  rw [hasked, hasked'] at hmem ⊢
  apply List.filter_congr
  intro kind hkind
  have hasks := hmem kind
  simp only [List.mem_filter, hkind, true_and] at hasks
  exact Bool.eq_iff_iff.mpr hasks

end Options

/-- Every configuration and every command line are merged, in the order of precedence, or else
their first fault is reported. How often and in which order kinds are named does not matter. -/
theorem merge_settles (config : Toml.Table) (args : Arguments) :
    (∃ entries configured, config.Skips entries ∧ config.Limits configured ∧
      Options.Settles args entries configured (Options.merge config args)) ∧
    (∀ files, loadConfig files args = .ok config →
      Options.resolve files args = Options.merge config args) ∧
    ∀ config' args' entries entries' options options', config.Skips entries →
      config'.Skips entries' → (∀ entry, entry ∈ entries ↔ entry ∈ entries') →
      (∀ name, name ∈ args.skip ↔ name ∈ args'.skip) →
      Options.merge config args = .ok options → Options.merge config' args' = .ok options' →
      options.skip = options'.skip := by
  refine ⟨?_, ?_, ?_⟩
  · exact ⟨configSkip config, configLimit config, Toml.Table.skips_iff.mpr rfl,
      Toml.Table.limits_configLimit config, Options.settles_merge config args⟩
  · intro files h
    exact Options.resolve_of_loaded h
  · intro config' args' entries entries' options options' hskips hskips' hentries hnames hok hok'
    rw [Toml.Table.skips_iff] at hskips hskips'
    subst hskips hskips'
    have hmerges := (Options.settles_merge config args).merges options hok
    have hmerges' := (Options.settles_merge config' args').merges options' hok'
    exact hmerges.skip_eq hmerges' hentries hnames

end AsmLexer
