import Mathlib.Data.List.Forall2
import NamespaceMigration.Proofs.ClassFile.BatchConversion
import NamespaceMigration.Proofs.ClassFile.Fragments
import NamespaceMigration.Proofs.ClassFile.ModifiedUtf8

/-! Conversion of class files with a resolver. -/

namespace NamespaceMigration

namespace Profile

def KeptOrResolved (p : Profile) (exists? : Resolver) (old new : List Char) : Prop :=
  new = old ∨ ∃ name dotted, p.namedClass? new = some (name, dotted) ∧ exists? (resourcePath name dotted) = true

def settled (p : Profile) (exists? : Resolver) (olds : List (List Char)) (old : List Char) : List Char :=
  (olds.map p.moved).foldl (p.settle exists?) (p.moved old)

def Reverts (p : Profile) (old : List Char) : Prop :=
  ∀ name ∈ p.namedClass? (p.moved old), p.revert name.2 (p.moved old) = old

structure Reversible (p : Profile) (olds : List (List Char)) : Prop where
  reverts : ∀ old ∈ olds, p.Reverts old
  kept : ∀ old ∈ olds, (p.namedClass? (p.moved old)).isSome → ∀ other ∈ olds,
    Text.replaceAll (p.moved old) old other = other
  apart : ∀ old ∈ olds, (p.namedClass? (p.moved old)).isSome → ∀ other ∈ olds,
    Text.replaceAll (p.moved old) old (p.moved other) = p.moved other ∨
      Text.replaceAll (p.moved old) old (p.moved other) = other

section Settle

variable {p : Profile} {exists? : Resolver} {olds : List (List Char)} {old other x : List Char}

lemma settle_of_resolved {name : List Char × Bool} (hn : p.namedClass? (p.moved old) = some name)
    (he : exists? (resourcePath name.1 name.2) = true) : p.settle exists? x (p.moved old) = x := by
  simp [settle, hn, he]

lemma settle_of_not_resolved {name : List Char × Bool} (hn : p.namedClass? (p.moved old) = some name)
    (he : exists? (resourcePath name.1 name.2) = false) (hr : p.Reverts old) :
    p.settle exists? x (p.moved old) = Text.replaceAll (p.moved old) old x := by
  simp [settle, hn, he, hr name hn]

lemma settle_of_not_named (hn : p.namedClass? (p.moved old) = none) : p.settle exists? x (p.moved old) = x := by
  simp [settle, hn]

namespace Reversible

variable (exists?)

lemma settle_other (h : p.Reversible olds) (ho : old ∈ olds) (hm : other ∈ olds) :
    p.settle exists? other (p.moved old) = other := by
  cases hn : p.namedClass? (p.moved old) with
  | none => exact settle_of_not_named hn
  | some name =>
    cases he : exists? (resourcePath name.1 name.2) with
    | true => exact settle_of_resolved hn he
    | false =>
      rw [settle_of_not_resolved hn he (h.reverts old ho)]
      exact h.kept old ho (by simp [hn]) other hm

lemma settle_moved (h : p.Reversible olds) (ho : old ∈ olds) (hm : other ∈ olds) :
    p.settle exists? (p.moved other) (p.moved old) = p.moved other ∨
      p.settle exists? (p.moved other) (p.moved old) = other := by
  cases hn : p.namedClass? (p.moved old) with
  | none => exact .inl (settle_of_not_named hn)
  | some name =>
    cases he : exists? (resourcePath name.1 name.2) with
    | true => exact .inl (settle_of_resolved hn he)
    | false =>
      rw [settle_of_not_resolved hn he (h.reverts old ho)]
      exact h.apart old ho (by simp [hn]) other hm

lemma foldl_other (h : p.Reversible olds) (hm : other ∈ olds) {l : List (List Char)} (hl : l ⊆ olds) :
    (l.map p.moved).foldl (p.settle exists?) other = other := by
  induction l with
  | nil => rfl
  | cons old l ih =>
    rw [List.cons_subset] at hl
    rw [List.map_cons, List.foldl_cons, h.settle_other exists? hl.1 hm, ih hl.2]

lemma foldl_moved (h : p.Reversible olds) (hm : other ∈ olds) {l : List (List Char)} (hl : l ⊆ olds) :
    (l.map p.moved).foldl (p.settle exists?) (p.moved other) = other ∨
      (l.map p.moved).foldl (p.settle exists?) (p.moved other) = p.moved other ∧
        ∀ name ∈ p.namedClass? (p.moved other), other ∈ l → exists? (resourcePath name.1 name.2) = true := by
  by_cases hself : p.moved other = other
  · rw [hself]
    exact .inl (h.foldl_other exists? hm hl)
  · induction l with
    | nil => exact .inr ⟨rfl, by simp⟩
    | cons old l ih =>
      rw [List.cons_subset] at hl
      rw [List.map_cons, List.foldl_cons]
      rcases h.settle_moved exists? hl.1 hm with hs | hs
      · rw [hs]
        refine (ih hl.2).imp_right fun ⟨he, hall⟩ => ⟨he, fun name hn hmem => ?_⟩
        rcases List.mem_cons.1 hmem with rfl | hmem
        · by_contra hno
          have hno : exists? (resourcePath name.1 name.2) = false := by simpa using hno
          rw [settle_of_not_resolved hn hno (h.reverts _ hl.1), Text.replaceAll_self (fragment_ne_nil hn)] at hs
          exact hself hs.symm
        · exact hall name hn hmem
      · rw [hs]
        exact .inl (h.foldl_other exists? hm hl.2)

lemma keptOrResolved {b : BuiltIn} (h : b.profile.Reversible olds) (hm : other ∈ olds) :
    b.profile.KeptOrResolved exists? other (b.profile.settled exists? olds other) := by
  rcases h.foldl_moved exists? hm (List.Subset.refl olds) with he | ⟨he, hall⟩
  · exact .inl he
  · rw [settled, he]
    by_cases hself : b.profile.moved other = other
    · exact .inl hself
    · obtain ⟨name, hn⟩ := Option.isSome_iff_exists.1 (isSome_namedClass?_of_moved_ne b hself)
      exact .inr ⟨name.1, name.2, hn, hall name hn hm⟩

lemma settled_of_not_exists {b : BuiltIn} (h : b.profile.Reversible olds) (hm : other ∈ olds) :
    b.profile.settled (fun _ => false) olds other = other := by
  rcases h.keptOrResolved (fun _ => false) hm with he | ⟨_, _, -, he⟩
  · exact he
  · cases he

end Reversible

end Settle

section Constant

variable (b : BuiltIn) (exists? : Resolver) (symbol : String)

def resettled (olds : List (List Char)) (s : List Char) : List Char :=
  (olds.map b.profile.moved).foldl (b.profile.settle exists?) (b.profile.moved s)

lemma fragmentwise_resettled {olds : List (List Char)} (h : ∀ old ∈ olds, Whole old) :
    Fragmentwise (resettled b exists? olds) := by
  refine (Fragmentwise.foldl fun fragment hm => ?_).comp (fragmentwise_moved b)
  obtain ⟨old, ho, rfl⟩ := List.mem_map.1 hm
  exact fragmentwise_settle b exists? ((fragmentwise_moved b).whole old (h old ho))

lemma migrateResolvable_eq :
    b.profile.migrateResolvable exists? symbol =
      if resettled b exists? (fragments symbol.toList) symbol.toList = symbol.toList then none
      else some (ModifiedUtf8.encodeChars (resettled b exists? (fragments symbol.toList) symbol.toList)) := by
  have hm : (b.profile.migrate symbol).value.toList = b.profile.moved symbol.toList := String.toList_ofList
  rw [migrateResolvable, hm, (fragmentwise_moved b).fragments, ← resettled]

lemma fragments_resettled :
    fragments (resettled b exists? (fragments symbol.toList) symbol.toList) =
      (fragments symbol.toList).map (b.profile.settled exists? (fragments symbol.toList)) :=
  (fragmentwise_resettled b exists? fun _ hm => whole_of_mem_fragments _ hm).fragments symbol.toList

lemma migrateResolvable_of_not_exists (h : b.profile.Reversible (fragments symbol.toList)) :
    b.profile.migrateResolvable (fun _ => false) symbol = none := by
  rw [migrateResolvable_eq, if_pos]
  refine (fragmentwise_resettled b _ fun _ hm => whole_of_mem_fragments _ hm).eq_self fun fragment hm => ?_
  exact h.settled_of_not_exists hm

lemma keptOrResolved_iff_of_whole {b : BuiltIn} {s : List Char} (h : Whole s) :
    (∀ exists?, b.profile.KeptOrResolved exists? s (b.profile.settled exists? (fragments s) s)) ↔
      b.profile.Reverts s := by
  have hs : ∀ exists?, b.profile.settled exists? (fragments s) s =
      b.profile.settle exists? (b.profile.moved s) (b.profile.moved s) := fun _ => by rw [fragments_of_whole h]; rfl
  simp only [hs]
  constructor
  · intro hall name hn
    rcases hall fun _ => false with he | ⟨_, _, -, he⟩
    · simpa [settle, Option.mem_def.1 hn, Text.replaceAll_self (fragment_ne_nil hn)] using he
    · cases he
  · intro hr exists?
    cases hn : b.profile.namedClass? (b.profile.moved s) with
    | none =>
      rw [settle_of_not_named hn]
      by_contra hno
      have hself : b.profile.moved s ≠ s := fun hself => hno (.inl hself)
      simpa [hn] using isSome_namedClass?_of_moved_ne b hself
    | some name =>
      cases he : exists? (resourcePath name.1 name.2) with
      | true => exact .inr ⟨name.1, name.2, by rw [settle_of_resolved hn he, hn], he⟩
      | false => exact .inl (by rw [settle_of_not_resolved hn he hr, Text.replaceAll_self (fragment_ne_nil hn)])

end Constant

end Profile

namespace ClassFile

open Profile

variable {c : ClassFile} {source raw bytes : Bytes} {b : BuiltIn} {exists? : Resolver}

lemma toBytes_of_convert {p : Profile} {resolver : Option Resolver} {path : String} {conversion : Conversion} {out : Bytes}
    (hc : parse source = .ok c) (hp : p.isTrivial = false) (h : convert p resolver path source = .ok conversion)
    (ho : conversion.replacement = some out) :
    out = { c with pool := migratedPool p resolver (.ofClass c) c.pool }.toBytes := by
  rw [convert, convertBytes_eq hc hp] at h
  by_cases hout : ∃ raw, some (.utf8 raw) ∈ c.pool.slots ∧ Outgrows p resolver (.ofClass c) raw
  · obtain ⟨n, hn⟩ := migratePool_eq_error (size_slots_le_of_parse hc) hout
    simp [hn, Except.map, Except.mapError] at h
  · obtain ⟨result, hr, hpool, -, -⟩ := migratePool_eq_ok (size_slots_le_of_parse hc)
      fun raw hm (ho : Outgrows p resolver (.ofClass c) raw) => hout ⟨raw, hm, ho⟩
    simp only [hr, Except.map, Except.mapError, Except.ok.injEq] at h
    subst h
    split at ho
    · rw [← hpool]
      exact (Option.some.inj ho).symm
    · cases ho

lemma migrateConstant_some_eq_some (h : (migrateConstant b.profile (some exists?) (.ofClass c) raw).1 = some bytes) :
    isProtected (.ofClass c) raw = false ∧ (b.profile.migrateBytes raw).changed = true ∧
      ∃ old, ModifiedUtf8.decode? raw = some old ∧ b.profile.migrateResolvable exists? old = some bytes := by
  unfold migrateConstant at h
  dsimp only at h
  split at h
  · cases h
  next hcond =>
    rw [Bool.or_eq_true, Bool.not_eq_true', not_or, Bool.not_eq_false, Bool.not_eq_true] at hcond
    split at h
    · cases h
    next old hd =>
      dsimp only at h
      exact ⟨hcond.2, hcond.1, old, hd, h⟩

lemma exists_text_of_migrateResolvable {old : String} (h : b.profile.migrateResolvable exists? old = some bytes) :
    ∃ new, ModifiedUtf8.decode? bytes = some new ∧
      fragments new.toList = (fragments old.toList).map (b.profile.settled exists? (fragments old.toList)) := by
  rw [migrateResolvable_eq] at h
  split at h
  · cases h
  · obtain rfl := Option.some.inj h
    refine ⟨_, ModifiedUtf8.decode?_encodeChars _, ?_⟩
    rw [String.toList_ofList, fragments_resettled]

lemma convert_of_not_exists (hc : parse source = .ok c) (path : String)
    (h : ∀ raw old, IsOpen c raw → (b.profile.migrateBytes raw).changed = true → ModifiedUtf8.decode? raw = some old →
      b.profile.Reversible (fragments old.toList)) :
    ∃ asked, convert b.profile (some fun _ => false) path source = .ok { Conversion.kept with asked := asked } := by
  have hnone : ∀ raw, some (.utf8 raw) ∈ c.pool.slots →
      (migrateConstant b.profile (some fun _ => false) (.ofClass c) raw).1 = none := by
    intro raw hm
    by_contra hno
    obtain ⟨bytes, hs⟩ := Option.ne_none_iff_exists'.1 hno
    obtain ⟨hp, hch, old, hd, hr⟩ := migrateConstant_some_eq_some hs
    rw [migrateResolvable_of_not_exists b old (h raw old ⟨hm, hp⟩ hch hd)] at hr
    cases hr
  have hout : ∀ raw, some (.utf8 raw) ∈ c.pool.slots →
      ¬ Outgrows b.profile (some fun _ => false) (.ofClass c) raw := by
    rintro raw hm ⟨bytes, hs, -⟩
    simp [hnone raw hm] at hs
  obtain ⟨result, hr, -, hch, -⟩ := migratePool_eq_ok (size_slots_le_of_parse hc) hout
  have hf : result.changed = false := by
    by_contra hno
    obtain ⟨raw, hm, hs⟩ := hch.1 (by simpa using hno)
    simp [hnone raw hm] at hs
  exact ⟨result.asked, by simp [convert, convertBytes_eq hc (isTrivial_builtIn b), hr, Except.map, Except.mapError, hf]⟩

/-- A changed text keeps its number of fragments, and each of them is settled on its own. So each is the old
one or names a class that exists, just if settling gives such a fragment for each old one, and always if the
fragments can be taken back one by one. Then nothing changes, too, if no class exists. -/
theorem convert_keeps_or_resolves (b : BuiltIn) (hc : parse source = .ok c) (path : String) :
    (∀ exists? conversion out, convert b.profile (some exists?) path source = .ok conversion →
      conversion.replacement = some out →
      ∃ pool : ConstantPool, out = { c with pool := pool }.toBytes ∧ pool.slots.size = c.pool.slots.size ∧
        ∀ (i : ℕ) (raw bytes : Bytes), c.pool.slots[i]? = some (some (.utf8 raw)) →
          pool.slots[i]? = some (some (.utf8 bytes)) → bytes ≠ raw →
          ∃ old new, ModifiedUtf8.decode? raw = some old ∧ ModifiedUtf8.decode? bytes = some new ∧
            (fragments new.toList).length = (fragments old.toList).length ∧
            (List.Forall₂ (b.profile.KeptOrResolved exists?) (fragments old.toList) (fragments new.toList) ↔
              ∀ fragment ∈ fragments old.toList, b.profile.KeptOrResolved exists? fragment
                (b.profile.settled exists? (fragments old.toList) fragment)) ∧
            (b.profile.Reversible (fragments old.toList) →
              List.Forall₂ (b.profile.KeptOrResolved exists?) (fragments old.toList) (fragments new.toList))) ∧
    (∀ s, Whole s → ((∀ exists?, b.profile.KeptOrResolved exists? s (b.profile.settled exists? (fragments s) s)) ↔
      b.profile.Reverts s)) ∧
    ((∀ raw old, IsOpen c raw → (b.profile.migrateBytes raw).changed = true → ModifiedUtf8.decode? raw = some old →
        b.profile.Reversible (fragments old.toList)) →
      ∃ conversion, convert b.profile (some fun _ => false) path source = .ok conversion ∧
        conversion.replacement = none) := by
  refine ⟨?_, fun s hs => keptOrResolved_iff_of_whole hs, ?_⟩
  · intro exists? conversion out h ho
    refine ⟨_, toBytes_of_convert hc (isTrivial_builtIn b) h ho, by simp [migratedPool], ?_⟩
    intro i raw bytes hraw hbytes hne
    obtain rfl : (migrateConstant b.profile (some exists?) (.ofClass c) raw).1.getD raw = bytes := by
      simpa [migratedPool, hraw, migratedConstant] using hbytes
    cases hm : (migrateConstant b.profile (some exists?) (.ofClass c) raw).1 with
    | none => simp [hm] at hne
    | some bytes =>
      obtain ⟨-, -, old, hold, hr⟩ := migrateConstant_some_eq_some hm
      obtain ⟨new, hnew, hfragments⟩ := exists_text_of_migrateResolvable hr
      have hiff : List.Forall₂ (b.profile.KeptOrResolved exists?) (fragments old.toList) (fragments new.toList) ↔
          ∀ fragment ∈ fragments old.toList, b.profile.KeptOrResolved exists? fragment
            (b.profile.settled exists? (fragments old.toList) fragment) := by
        rw [hfragments, List.forall₂_map_right_iff, List.forall₂_same]
      refine ⟨old, new, hold, hnew, by rw [hfragments, List.length_map], hiff, fun hrev => hiff.2 fun fragment hf => ?_⟩
      exact hrev.keptOrResolved exists? hf
  · intro h
    obtain ⟨asked, hok⟩ := convert_of_not_exists hc path h
    exact ⟨_, hok, rfl⟩

def signature : String := "(Ljavax/servlet/Servlet;Ljava/util/List<Ljavax/servlet/Filter;>;)V"

theorem convert_keeps_signature :
    ∃ c conversion, parse (bareClass signature) = .ok c ∧ IsOpen c (Bytes.utf8 signature) ∧
      (BuiltIn.tomcat.profile.migrateBytes (Bytes.utf8 signature)).changed = true ∧
      ModifiedUtf8.decode? (Bytes.utf8 signature) = some signature ∧
      BuiltIn.tomcat.profile.Reversible (fragments signature.toList) ∧
      convert BuiltIn.tomcat.profile (some fun _ => false) "Filter.class" (bareClass signature) = .ok conversion ∧
      conversion.replacement = none := by
  let body : ClassBody := ⟨1, 2, 0, [], [], [], []⟩
  let pool : ConstantPool := ⟨#[none, some (.utf8 (Bytes.utf8 signature)), some (.classInfo 1)]⟩
  let c : ClassFile := ⟨0, 52, pool, body, [0, 1, 0, 2, 0, 0, 0, 0, 0, 0, 0, 0, 0, 0]⟩
  have hc : parse (bareClass signature) = .ok c := by decide +kernel
  have ho : IsOpen c (Bytes.utf8 signature) := ⟨by decide +kernel, by decide +kernel⟩
  have hm : (BuiltIn.tomcat.profile.migrateBytes (Bytes.utf8 signature)).changed = true := by decide +kernel
  have hd : ModifiedUtf8.decode? (Bytes.utf8 signature) = some signature := by decide +kernel
  have hr : BuiltIn.tomcat.profile.Reversible (fragments signature.toList) := by
    refine ⟨?_, by decide +kernel, by decide +kernel⟩
    unfold Reverts
    decide +kernel
  obtain ⟨conversion, hok, hn⟩ := (convert_keeps_or_resolves .tomcat hc "Filter.class").2.2 (by
    rintro raw old ⟨hraw, -⟩ - hold
    obtain rfl : raw = Bytes.utf8 signature := by simpa [c, pool] using hraw
    obtain rfl : signature = old := by simpa [hd] using hold
    exact hr)
  exact ⟨c, conversion, hc, ho, hm, hd, hr, hok, hn⟩

/-- With both separators in one fragment, only the names with one of them are taken back. -/
theorem convert_changes_mixed_separators :
    convert BuiltIn.tomcat.profile (some fun _ => false) "A.class" (bareClass "javax/servlet/A javax.servlet.B") =
      .ok ⟨some (bareClass "javax/servlet/A jakarta.servlet.B"), true, ["jakarta/servlet/A jakarta.servlet.B.class"]⟩ := by
  decide +kernel

end ClassFile
end NamespaceMigration
