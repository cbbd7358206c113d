import DeviceTrust.Proofs.Outcome
import DeviceTrust.Proofs.Settings.Layering
import DeviceTrust.Settings.Source
import Mathlib.Data.List.Nodup
import Mathlib.Data.List.Pairwise
import Mathlib.Data.List.Perm.Basic

/-!
# Which source a setting comes from

Sources are loaded by rank, those of one rank as they are given, and the last one to set a setting
decides it. The order of sources of different rank is therefore of no account, and a source that
sets nothing may as well not be there: neither what the others resolve to nor the error that they
end in changes. The environment is such a source when no variable of the program is set.
-/

namespace DeviceTrust.Settings

variable {files : Storage} {sources sources' xs : List Source} {s : Source} {l : Layer} {rank : Rank}

namespace Source

def ranked (rank : Rank) (sources : List Source) : List Source := sources.filter (·.rank = rank)

/-- What a source sets a setting to, if it can be loaded and sets it. -/
def get? (files : Storage) (s : Source) (σ : Setting) : Option σ.Value := (s.load files).toOption.bind (·.get? σ)

theorem ranked_cons (rank : Rank) (s : Source) (xs : List Source) :
    ranked rank (s :: xs) = if s.rank = rank then s :: ranked rank xs else ranked rank xs := by
  by_cases h : s.rank = rank <;> simp [ranked, h]

theorem ranked_append (rank : Rank) (xs ys : List Source) :
    ranked rank (xs ++ ys) = ranked rank xs ++ ranked rank ys := List.filter_append ..

/-- Sources in ascending order are those of the lowest rank, then those of the next, and so on. -/
theorem ranked_of_pairwise (h : xs.Pairwise fun a b => a.rank.number ≤ b.rank.number) :
    ranked .defaults xs ++ ranked .file xs ++ ranked .environment xs = xs := by
  induction xs with
  | nil => rfl
  | cons x xs ih =>
    obtain ⟨hx, hxs⟩ := List.pairwise_cons.mp h
    have ih := ih hxs
    have hnone (r : Rank) (hr : r.number < x.rank.number) : ranked r xs = [] := by
      apply List.filter_eq_nil_iff.mpr
      intro y hy hrank
      have hle := hx y hy
      rw [of_decide_eq_true hrank] at hle
      omega
    cases hrank : x.rank with
    | defaults => simpa [ranked_cons, hrank] using ih
    | file =>
      rw [hrank] at hnone
      have hdefaults := hnone .defaults (by decide)
      simpa [ranked_cons, hrank, hdefaults] using ih
    | environment =>
      rw [hrank] at hnone
      have hdefaults := hnone .defaults (by decide)
      have hfile := hnone .file (by decide)
      simpa [ranked_cons, hrank, hdefaults, hfile] using ih

theorem rank_le_trans (a b c : Source) (hab : decide (a.rank.number ≤ b.rank.number) = true)
    (hbc : decide (b.rank.number ≤ c.rank.number) = true) : decide (a.rank.number ≤ c.rank.number) = true := by
  simp only [decide_eq_true_eq] at *
  omega

theorem rank_le_total (a b : Source) :
    (decide (a.rank.number ≤ b.rank.number) || decide (b.rank.number ≤ a.rank.number)) = true := by
  simp only [Bool.or_eq_true, decide_eq_true_eq]
  omega

theorem pairwise_ordered (sources : List Source) :
    (ordered sources).Pairwise fun a b => a.rank.number ≤ b.rank.number :=
  (List.pairwise_mergeSort rank_le_trans rank_le_total sources).imp of_decide_eq_true

theorem ranked_ordered (rank : Rank) (sources : List Source) :
    ranked rank (ordered sources) = ranked rank sources := by
  have hsame : (ranked rank sources).Pairwise fun a b => decide (a.rank.number ≤ b.rank.number) = true := by
    apply List.pairwise_of_forall_mem_list
    intro a ha b hb
    rw [of_decide_eq_true (List.mem_filter.mp ha).2, of_decide_eq_true (List.mem_filter.mp hb).2]
    exact decide_eq_true (Nat.le_refl _)
  have hsub : (ranked rank sources).Sublist (ordered sources) :=
    List.sublist_mergeSort rank_le_trans rank_le_total hsame List.filter_sublist
  have hranked : (ranked rank sources).Sublist (ranked rank (ordered sources)) := by
    have hself : ranked rank (ranked rank sources) = ranked rank sources :=
      List.filter_eq_self.mpr fun a ha => (List.mem_filter.mp ha).2
    rw [← hself]
    exact hsub.filter _
  have hperm : (ranked rank (ordered sources)).Perm (ranked rank sources) :=
    (List.mergeSort_perm sources _).filter _
  exact (hranked.eq_of_length hperm.length_eq.symm).symm

theorem ordered_eq (sources : List Source) :
    ordered sources = ranked .defaults sources ++ ranked .file sources ++ ranked .environment sources := by
  have h := ranked_of_pairwise (pairwise_ordered sources)
  rw [ranked_ordered, ranked_ordered, ranked_ordered] at h
  exact h.symm

/-- A source that is added finds its place by its rank, and leaves the others in their order. Those that come after
it are of higher rank, or of the same rank and given later. -/
theorem ordered_insert (before after : List Source) (rank : Rank) :
    ∃ lower upper, (∀ s : Source, s.rank = rank → ordered (before ++ s :: after) = lower ++ s :: upper) ∧
      ordered (before ++ after) = lower ++ upper ∧
      ∀ u ∈ upper, u ∈ before ∧ rank.number < u.rank.number ∨ u ∈ after ∧ rank.number ≤ u.rank.number := by
  have hmem {r : Rank} {u : Source} {xs : List Source} (hu : u ∈ ranked r xs) : u ∈ xs ∧ u.rank = r :=
    ⟨List.mem_of_mem_filter hu, of_decide_eq_true (List.mem_filter.mp hu).2⟩
  have hplace {r : Rank} {u : Source} (hr : rank.number < r.number) (hu : u ∈ ranked r (before ++ after)) :
      u ∈ before ∧ rank.number < u.rank.number ∨ u ∈ after ∧ rank.number ≤ u.rank.number := by
    obtain ⟨hu, hrank⟩ := hmem hu
    rw [hrank]
    rcases List.mem_append.mp hu with hu | hu
    · exact .inl ⟨hu, hr⟩
    · exact .inr ⟨hu, Nat.le_of_lt hr⟩
  have hsame {u : Source} (hu : u ∈ ranked rank after) :
      u ∈ before ∧ rank.number < u.rank.number ∨ u ∈ after ∧ rank.number ≤ u.rank.number := by
    obtain ⟨hu, hrank⟩ := hmem hu
    exact .inr ⟨hu, Nat.le_of_eq (congrArg Rank.number hrank.symm)⟩
  simp only [ordered_eq, ranked_append, ranked_cons]
  cases rank with
  | defaults =>
    refine ⟨ranked .defaults before, ranked .defaults after ++ ranked .file (before ++ after) ++
      ranked .environment (before ++ after), ?_, by simp [ranked_append], ?_⟩
    · intro s hs
      simp [ranked_append, hs]
    · intro u hu
      rcases List.mem_append.mp hu with hu | hu
      · rcases List.mem_append.mp hu with hu | hu
        · exact hsame hu
        · exact hplace (by decide) hu
      · exact hplace (by decide) hu
  | file =>
    refine ⟨ranked .defaults (before ++ after) ++ ranked .file before,
      ranked .file after ++ ranked .environment (before ++ after), ?_, by simp [ranked_append], ?_⟩
    · intro s hs
      simp [ranked_append, hs]
    · intro u hu
      rcases List.mem_append.mp hu with hu | hu
      · exact hsame hu
      · exact hplace (by decide) hu
  | environment =>
    refine ⟨ranked .defaults (before ++ after) ++ ranked .file (before ++ after) ++ ranked .environment before,
      ranked .environment after, ?_, by simp [ranked_append], fun u hu => hsame hu⟩
    intro s hs
    simp [ranked_append, hs]

/-- Of sources of different rank, the order in which they are given is of no account. -/
theorem ranked_of_perm (hperm : sources'.Perm sources) (hranks : (sources.map Source.rank).Nodup) (rank : Rank) :
    ranked rank sources' = ranked rank sources := by
  have hfilter : (ranked rank sources').Perm (ranked rank sources) := hperm.filter _
  have hone : (ranked rank sources).length ≤ 1 := by
    have hcount := List.nodup_iff_count_le_one.mp hranks rank
    rwa [List.count, List.countP_map, List.countP_eq_length_filter,
      show (fun r => r == rank) ∘ Source.rank = fun s => decide (s.rank = rank) from rfl] at hcount
  cases hsources : ranked rank sources with
  | nil =>
    rw [hsources] at hfilter
    exact hfilter.eq_nil
  | cons s rest =>
    rw [hsources] at hfilter hone
    obtain rfl : rest = [] := List.length_eq_zero_iff.mp (by simpa using hone)
    exact List.perm_singleton.mp hfilter

/-- Sources that can all be loaded end in a layer, and the last one to set a setting decides it. -/
theorem exists_loadOver (hloads : ∀ s ∈ xs, ∃ l, s.load files = .ok l) (base : Layer) :
    ∃ layer, loadOver files base xs = .ok layer ∧
      ∀ σ, layer.get? σ = (xs.reverse.findSome? (·.get? files σ)).or (base.get? σ) := by
  induction xs generalizing base with
  | nil => exact ⟨base, rfl, fun σ => rfl⟩
  | cons s rest ih =>
    obtain ⟨⟨upper, hupper⟩, hrest⟩ := List.forall_mem_cons.mp hloads
    obtain ⟨layer, hlayer, hget⟩ := ih hrest (base.under upper)
    refine ⟨layer, ?_, fun σ => ?_⟩
    · rw [loadOver, hupper]
      exact hlayer
    · have hs : s.get? files σ = upper.get? σ := by rw [get?, hupper]; rfl
      rw [hget, Layer.get?_under, List.reverse_cons, List.findSome?_append, List.findSome?_singleton, hs,
        Option.or_assoc]

theorem loadOver_append (files : Storage) (base : Layer) (lower upper : List Source) :
    loadOver files base (lower ++ upper) = loadOver files base lower >>= fun m => loadOver files m upper := by
  induction lower generalizing base with
  | nil => rfl
  | cons s rest ih =>
    rw [List.cons_append, loadOver, loadOver]
    cases s.load files with
    | error e => rfl
    | ok l => exact ih (base.under l)

/-- Sources laid over layers that set the same end in the same error or resolve to the same. -/
theorem resolve_loadOver_congr {a b : Layer} (h : ∀ σ, a.get? σ = b.get? σ) (xs : List Source) :
    loadOver files a xs >>= Layer.resolve = loadOver files b xs >>= Layer.resolve := by
  induction xs generalizing a b with
  | nil =>
    rw [loadOver, loadOver, ok_bind, ok_bind]
    exact Layer.resolve_congr h
  | cons s rest ih =>
    rw [loadOver, loadOver]
    cases s.load files with
    | error e => rfl
    | ok l =>
      apply ih
      intro σ
      rw [Layer.get?_under, Layer.get?_under, h σ]

end Source

theorem load_eq (files : Storage) (sources : List Source) :
    load files sources = Source.loadOver files {} (Source.ordered sources) >>= Layer.resolve := by
  rw [load]
  cases Source.loadOver files {} (Source.ordered sources) with
  | error e => rfl
  | ok layer => exact (ok_bind layer Layer.resolve).symm

theorem load_of_ranked (h : ∀ rank, Source.ranked rank sources' = Source.ranked rank sources) :
    load files sources' = load files sources := by
  rw [load_eq, load_eq, Source.ordered_eq, Source.ordered_eq, h, h, h]

theorem load_insert (hload : s.load files = .ok l) (hsilent : ∀ σ, l.get? σ = none) (before after : List Source) :
    load files (before ++ s :: after) = load files (before ++ after) := by
  obtain ⟨lower, upper, hwith, hwithout, -⟩ := Source.ordered_insert before after s.rank
  rw [load_eq, load_eq, hwith s rfl, hwithout, Source.loadOver_append, Source.loadOver_append]
  cases Source.loadOver files {} lower with
  | error e => rfl
  | ok m =>
    have hsame : ∀ σ, (m.under l).get? σ = m.get? σ := by
      intro σ
      rw [Layer.get?_under, hsilent σ, Option.none_or]
    rw [ok_bind, ok_bind, Source.loadOver, hload]
    exact Source.resolve_loadOver_congr hsame upper

/-- An environment in which no variable of the program is set has every section, and nothing in them. -/
theorem Environment.layer_of_unset {env : Environment} (h : ∀ name ∈ variableNames, env name = none) :
    env.layer files = .ok ({} : Layer).complete := by
  have hunset {name : String} (hname : name ∈ variableNames) : env.filled? name = none := by
    rw [filled?, h name hname]
    rfl
  have hsecret : Secret.load files env codecKeyVariable = .ok none := by
    have hpath := h (Secret.fileVariable codecKeyVariable) (by decide)
    have hvalue := h codecKeyVariable (by decide)
    rw [Secret.load, Secret.path?, hpath, hvalue]
    rfl
  simp (disch := decide) only [layer, sealingLayer, hsecret, tokenLayer, keySetLayer, loggingLayer, policyLayer,
    issuanceLayer, list?, count?, keyring?, hunset, h]
  rfl

/-- **Every setting comes from the last source that sets it.** Sources are taken by rank and, within a rank, as they
are given. If all of them can be loaded, a setting of the layer that is resolved is what the last of them sets it
to, and it is open exactly if none sets it. So layers may be grouped in any way and the empty layer adds nothing,
sources may be rearranged as long as those of one rank keep their order, and a source that sets nothing can be
added anywhere without a change to the result or to the error. An environment without any of the variables is such
a source, although its layer has all the sections. -/
theorem settings_by_precedence (files : Storage) :
    (∀ sources, (∀ s ∈ sources, ∃ l, s.load files = .ok l) →
      ∃ layer, Source.loadOver files {} (Source.ordered sources) = .ok layer ∧ load files sources = layer.resolve ∧
        ∀ σ : Setting, layer.get? σ = (Source.ordered sources).reverse.findSome? (·.get? files σ) ∧
          (layer.get? σ = none ↔ ∀ s ∈ sources, s.get? files σ = none)) ∧
    (∀ sources, Source.ordered sources =
      Source.ranked .defaults sources ++ Source.ranked .file sources ++ Source.ranked .environment sources) ∧
    ((∀ a b c : Layer, (a.under b).under c = a.under (b.under c)) ∧
      ∀ a : Layer, a.under {} = a ∧ ({} : Layer).under a = a) ∧
    (∀ sources sources',
      (∀ rank, Source.ranked rank sources' = Source.ranked rank sources) ∨
        (sources'.Perm sources ∧ (sources.map Source.rank).Nodup) →
      load files sources' = load files sources) ∧
    (∀ before after s l, s.load files = .ok l → (∀ σ, l.get? σ = none) →
      load files (before ++ s :: after) = load files (before ++ after)) ∧
    (∀ env, (∀ name ∈ variableNames, env name = none) →
      (Source.environment env).load files = .ok ({} : Layer).complete ∧
      ∀ σ, ({} : Layer).complete.get? σ = none) := by
  refine ⟨?_, Source.ordered_eq, ⟨Layer.under_assoc, fun a => ⟨a.under_empty, a.empty_under⟩⟩, ?_, ?_, ?_⟩
  · intro sources hloads
    have hmem (s : Source) : s ∈ Source.ordered sources ↔ s ∈ sources := List.mem_mergeSort
    have hordered : ∀ s ∈ Source.ordered sources, ∃ l, s.load files = .ok l := fun s hs => hloads s ((hmem s).mp hs)
    obtain ⟨layer, hlayer, hget⟩ := Source.exists_loadOver hordered {}
    have hlast (σ : Setting) : layer.get? σ = (Source.ordered sources).reverse.findSome? (·.get? files σ) := by
      rw [hget, Layer.get?_empty, Option.or_none]
    refine ⟨layer, hlayer, by rw [load_eq, hlayer, ok_bind], fun σ => ⟨hlast σ, ?_⟩⟩
    rw [hlast, List.findSome?_eq_none_iff]
    constructor
    · intro h s hs
      exact h s (List.mem_reverse.mpr ((hmem s).mpr hs))
    · intro h s hs
      exact h s ((hmem s).mp (List.mem_reverse.mp hs))
  · rintro sources sources' (hranked | ⟨hperm, hranks⟩)
    · exact load_of_ranked hranked
    · exact load_of_ranked (Source.ranked_of_perm hperm hranks)
  · exact fun before after s l hload hsilent => load_insert hload hsilent before after
  · intro env hunset
    refine ⟨Environment.layer_of_unset hunset, fun σ => ?_⟩
    rw [Layer.get?_complete, Layer.get?_empty]

/-- Two documents and an environment without variables, in the wrong order: the later document decides the level, the
earlier one the form of the log, and the environment may as well be missing. -/
theorem settings_by_precedence_of_two_documents :
    let earlier : Source := .fixed .file { logging := some { level := some "debug", format := some .json } }
    let later : Source := .fixed .file { logging := some { level := some "warn" } }
    let unset : Source := .environment fun _ => none
    ∃ layer, Source.loadOver .empty {} (Source.ordered [unset, earlier, .defaults, later]) = .ok layer ∧
      layer.get? (.logging .level) = some "warn" ∧ layer.get? (.logging .format) = some .json ∧
      layer.get? .codecKey = none ∧
      load .empty [unset, earlier, .defaults, later] = load .empty [.defaults, earlier, later] := by
  intro earlier later unset
  obtain ⟨hresolve, hordered, -, hrearrange, hsilent, hunset⟩ := settings_by_precedence .empty
  obtain ⟨hload, hnothing⟩ := hunset (fun _ => none) fun _ _ => rfl
  have hloads : ∀ s ∈ [unset, earlier, .defaults, later], ∃ l, s.load .empty = .ok l := by
    intro s hs
    simp only [List.mem_cons, List.not_mem_nil, or_false] at hs
    rcases hs with rfl | rfl | rfl | rfl
    · exact ⟨_, hload⟩
    · exact ⟨_, rfl⟩
    · exact ⟨_, rfl⟩
    · exact ⟨_, rfl⟩
  obtain ⟨layer, hlayer, -, hlast⟩ := hresolve _ hloads
  have horder : Source.ordered [unset, earlier, .defaults, later] = [.defaults, earlier, later, unset] := hordered _
  have hsilently (σ : Setting) : unset.get? .empty σ = none := by
    rw [Source.get?, hload]
    exact hnothing σ
  have hlatest (σ : Setting) : layer.get? σ = [later, earlier, .defaults].findSome? (·.get? .empty σ) := by
    rw [(hlast σ).1, horder, List.reverse_cons, List.reverse_cons]
    exact List.findSome?_cons_of_isNone (by rw [hsilently]; rfl)
  have hdropped := hsilent [] [earlier, .defaults, later] unset _ hload hnothing
  have hsorted := hrearrange [.defaults, earlier, later] [earlier, .defaults, later]
    (.inl fun rank => by cases rank <;> rfl)
  exact ⟨layer, hlayer, hlatest _, hlatest _, hlatest _, hdropped.trans hsorted⟩

end DeviceTrust.Settings
