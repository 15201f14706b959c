import Mathlib.Data.List.Lex
import Mathlib.Data.Prod.Lex
import Mathlib.Data.String.Basic
import MangledNames.SymbolList
import MangledNames.Proofs.Safety
set_option autoImplicit false

/-!
Lists of symbols: every entry is listed with what its own name says, in a stable order, and a raw
name is looked up to the entry with the lowest address.
-/

namespace MangledNames

/-- `output` has what `input` has, by ascending keys, and where keys agree it is as in `input`. -/
structure StablySorted {α κ : Type} [LinearOrder κ] (key : α → κ)
    (input output : List α) : Prop where
  perm : output.Perm input
  sorted : output.Pairwise fun a b => key a ≤ key b
  stable : ∀ k, (output.filter fun a => key a = k) = input.filter fun a => key a = k

namespace StablySorted

variable {α κ : Type} [LinearOrder κ] {key : α → κ} {input output output' : List α}

theorem mem_iff_of_filters {xs ys : List α}
    (h : ∀ k, (xs.filter fun a => key a = k) = ys.filter fun a => key a = k) (a : α) :
    a ∈ xs ↔ a ∈ ys := by
  have ha : a ∈ (xs.filter fun b => key b = key a) ↔ a ∈ ys.filter fun b => key b = key a := by
    rw [h (key a)]
  simpa using ha

theorem eq_of_filters {xs ys : List α} (hx : xs.Pairwise fun a b => key a ≤ key b)
    (hy : ys.Pairwise fun a b => key a ≤ key b)
    (h : ∀ k, (xs.filter fun a => key a = k) = ys.filter fun a => key a = k) : xs = ys := by
  induction xs generalizing ys with
  | nil =>
    cases ys with
    | nil => rfl
    | cons b ys => exact absurd ((mem_iff_of_filters h b).mpr (.head _)) List.not_mem_nil
  | cons a xs ih =>
    cases ys with
    | nil => exact absurd ((mem_iff_of_filters h a).mp (.head _)) List.not_mem_nil
    | cons b ys =>
      rw [List.pairwise_cons] at hx hy
      have hab : key a ≤ key b := by
        rcases List.mem_cons.mp ((mem_iff_of_filters h b).mpr (.head _)) with rfl | hb
        · exact le_rfl
        · exact hx.1 b hb
      have hba : key b ≤ key a := by
        rcases List.mem_cons.mp ((mem_iff_of_filters h a).mp (.head _)) with rfl | ha
        · exact le_rfl
        · exact hy.1 a ha
      have hkey : key b = key a := le_antisymm hba hab
      have hhead := h (key a)
      simp only [List.filter_cons,hkey,decide_true,if_true,List.cons.injEq] at hhead
      obtain ⟨rfl,_⟩ := hhead
      have hrest : ∀ k, (xs.filter fun c => key c = k) = ys.filter fun c => key c = k := by
        intro k
        have hk := h k
        simp only [List.filter_cons] at hk
        split at hk
        · exact (List.cons.inj hk).2
        · exact hk
      exact congrArg (a :: ·) (ih hx.2 hy.2 hrest)

/-- There is only one way to sort and to keep what is tied as it was. -/
theorem unique (h : StablySorted key input output) (h' : StablySorted key input output') :
    output = output' :=
  eq_of_filters h.sorted h'.sorted fun k => (h.stable k).trans (h'.stable k).symm

theorem mergeSort {le : α → α → Bool} (hle : ∀ a b, le a b = true ↔ key a ≤ key b)
    (input : List α) : StablySorted key input (input.mergeSort le) := by
  have htrans : ∀ a b c, le a b = true → le b c = true → le a c = true := by
    intro a b c hab hbc
    rw [hle] at *
    exact le_trans hab hbc
  have htotal : ∀ a b, (le a b || le b a) = true := by
    intro a b
    rw [Bool.or_eq_true,hle,hle]
    exact le_total _ _
  have hperm := List.mergeSort_perm input le
  refine ⟨hperm,(List.pairwise_mergeSort htrans htotal input).imp fun h => (hle _ _).mp h,?_⟩
  intro k
  have htied : (input.filter fun a => key a = k).Pairwise fun a b => le a b = true := by
    refine List.pairwise_of_forall_mem_list fun a ha b hb => ?_
    simp only [List.mem_filter,decide_eq_true_eq] at ha hb
    rw [hle,ha.2,hb.2]
  have hsub := (List.sublist_mergeSort htrans htotal htied List.filter_sublist).filter
    fun a => key a = k
  rw [List.filter_filter] at hsub
  simp only [Bool.and_self] at hsub
  exact (hsub.eq_of_length (hperm.filter _).length_eq.symm).symm

/-- With pairwise different keys it does not matter in which order they come. -/
theorem reordered {input' : List α} (h : StablySorted key input output) (hperm : input'.Perm input)
    (hkeys : input.Pairwise fun a b => key a ≠ key b) : StablySorted key input' output := by
  refine ⟨h.perm.trans hperm.symm,h.sorted,fun k => (h.stable k).trans ?_⟩
  have hshort : (input.filter fun a => key a = k).length ≤ 1 := by
    have hdiffer := hkeys.filter fun a => key a = k
    generalize hfound : (input.filter fun a => key a = k) = found at hdiffer ⊢
    match found with
    | [] => exact Nat.zero_le _
    | [_] => exact Nat.le_refl _
    | a :: b :: _ =>
      have ha : a ∈ input.filter fun a => key a = k := by simp [hfound]
      have hb : b ∈ input.filter fun a => key a = k := by simp [hfound]
      simp only [List.mem_filter,decide_eq_true_eq] at ha hb
      exact absurd (ha.2.trans hb.2.symm) ((List.pairwise_cons.mp hdiffer).1 b (.head _))
  have hfilter := hperm.filter fun a => key a = k
  generalize (input.filter fun a => key a = k) = found at hshort hfilter ⊢
  match found with
  | [] => exact hfilter.eq_nil.symm
  | [a] => exact (List.perm_singleton.mp hfilter).symm

/-- What is found first in a sorted list has the lowest key, and among equal keys it came first. -/
theorem find?_eq {p : α → Bool} (h : StablySorted key input output)
    (hp : ∀ a b, key a = key b → p a = p b) {a : α} (ha : output.find? p = some a) :
    p a = true ∧ ∃ before after, input = before ++ a :: after ∧
      (∀ b ∈ before, p b = true → key a < key b) ∧ ∀ b ∈ after, p b = true → key a ≤ key b := by
  obtain ⟨hpa,skipped,rest,hout,hskipped⟩ := List.find?_eq_some_iff_append.mp ha
  have hlow : ∀ b ∈ input, p b = true → key a ≤ key b := by
    intro b hb hpb
    have hb := h.perm.mem_iff.mpr hb
    have hsorted := h.sorted
    rw [hout] at hb hsorted
    rcases List.mem_append.mp hb with hb | hb
    · exact absurd (hskipped b hb) (by simp [hpb])
    · rcases List.mem_cons.mp hb with rfl | hb
      · exact le_rfl
      · exact (List.pairwise_cons.mp (List.pairwise_append.mp hsorted).2.1).1 b hb
  have hnone : (skipped.filter fun b => key b = key a) = [] := by
    rw [List.filter_eq_nil_iff]
    intro b hb hkey
    have hpb := hp b a (of_decide_eq_true hkey)
    have hfalse := hskipped b hb
    simp [hpb,hpa] at hfalse
  have htied := h.stable (key a)
  rw [hout,List.filter_append,hnone,List.nil_append,List.filter_cons,if_pos (by simp)] at htied
  obtain ⟨before,after,hin,hbefore,_,_⟩ := List.filter_eq_cons_iff.mp htied.symm
  refine ⟨hpa,before,after,hin,fun b hb hpb => ?_,fun b hb hpb => ?_⟩
  · refine lt_of_le_of_ne (hlow b (by simp [hin,hb]) hpb) fun hkey => hbefore b hb ?_
    simp [hkey]
  · exact hlow b (by simp [hin,hb]) hpb

end StablySorted

namespace SymbolEntry

/-- What entries are sorted by: the address, then the name by its code points. -/
def key (entry : SymbolEntry) : Nat ×ₗ List Nat :=
  toLex (entry.address,entry.name.toList.map Char.toNat)

theorem codes_le_iff (s t : String) :
    s.toList.map Char.toNat ≤ t.toList.map Char.toNat ↔ s ≤ t := by
  have hmono : StrictMono fun text : List Char => text.map Char.toNat :=
    fun _ _ h => List.map_lt (fun _ _ hc => hc) h
  rw [String.le_iff_toList_le]
  exact hmono.le_iff_le

theorem codes_inj {s t : String} : s.toList.map Char.toNat = t.toList.map Char.toNat ↔ s = t := by
  rw [List.map_inj_right fun _ _ h => Char.toNat_inj.mp h,String.toList_inj]

theorem precedes_iff_key (a b : SymbolEntry) : a.precedes b = true ↔ a.key ≤ b.key := by
  rw [key,key,Prod.Lex.toLex_le_toLex]
  simp [precedes,codes_le_iff]

theorem key_eq_iff {a b : SymbolEntry} : a.key = b.key ↔
    (a.address,a.name) = (b.address,b.name) := by
  rw [key,key,toLex_inj,Prod.mk.injEq,Prod.mk.injEq,codes_inj]

/-- Entries of one name are sorted by their addresses. -/
theorem key_lt_iff {a b : SymbolEntry} (h : a.name = b.name) : a.key < b.key ↔
    a.address < b.address := by
  simp [key,Prod.Lex.toLex_lt_toLex,h]

theorem key_le_iff {a b : SymbolEntry} (h : a.name = b.name) : a.key ≤ b.key ↔
    a.address ≤ b.address := by
  simp [key,Prod.Lex.toLex_le_toLex,h,Nat.le_iff_lt_or_eq]

def listed (entry : SymbolEntry) (config : Config) : ListedSymbol :=
  ⟨entry,(demangle entry.name config).toOption⟩

def reading (entry : SymbolEntry) (config : Config) : NameReading :=
  (entry.nameReading config).toOption.getD .failed

theorem nameReading_eq (entry : SymbolEntry) (config : Config) :
    entry.nameReading config = .ok (entry.reading config) := by
  unfold reading nameReading
  rcases (demangle_outcome entry.name config).cases with ⟨text,htext,_⟩ | ⟨e,he⟩
  · rw [htext]
    rfl
  · rw [he]
    rfl

theorem reading_text? (entry : SymbolEntry) (config : Config) :
    (entry.reading config).text? = (demangle entry.name config).toOption := by
  unfold reading nameReading
  rcases (demangle_outcome entry.name config).cases with ⟨text,htext,_⟩ | ⟨e,he⟩
  · rw [htext]
    rfl
  · rw [he]
    cases hcategory : decide (e.category = .notMangled) with
    | true => simp [of_decide_eq_true hcategory,Except.toOption,NameReading.text?]
    | false => simp [of_decide_eq_false hcategory,Except.toOption,NameReading.text?]

end SymbolEntry

theorem ListedSymbol.inOrder_sorted (symbols : List ListedSymbol) :
    StablySorted (fun symbol => symbol.entry.key) symbols (inOrder symbols) :=
  .mergeSort (fun a b => SymbolEntry.precedes_iff_key a.entry b.entry) symbols

namespace SymbolList

def sort (symbols : List ListedSymbol) : SymbolList where
  symbols := ListedSymbol.inOrder symbols
  sorted := (ListedSymbol.inOrder_sorted symbols).sorted.imp
    (SymbolEntry.precedes_iff_key _ _).mpr

theorem ofSorted_symbols (list : SymbolList) : ofSorted list.symbols = .ok list := by
  rw [ofSorted,dif_pos list.sorted]

theorem ofSorted_inOrder (symbols : List ListedSymbol) :
    ofSorted (ListedSymbol.inOrder symbols) = .ok (sort symbols) := ofSorted_symbols (sort symbols)

theorem sort_sorted (symbols : List ListedSymbol) :
    StablySorted (fun symbol => symbol.entry.key) symbols (sort symbols).symbols :=
  ListedSymbol.inOrder_sorted symbols

end SymbolList

theorem Listing.ofEntries_eq (entries : List SymbolEntry) (config : Config) :
    Listing.ofEntries entries config = .ok {
      list := .sort (entries.map (·.listed config))
      warnings :=
        let failures := (entries.map (·.reading config)).count .failed
        if failures = 0 then [] else [.failures failures] } := by
  have hreadings : entries.mapM (·.nameReading config) =
      (.ok (entries.map (·.reading config)) : Except Fault _) := by
    simp only [SymbolEntry.nameReading_eq]
    exact List.mapM_pure
  have hlist : List.zipWith (fun entry reading => (⟨entry,reading.text?⟩ : ListedSymbol)) entries
      (entries.map (·.reading config)) = entries.map (·.listed config) := by
    simp only [List.zipWith_map_right,List.zipWith_self,SymbolEntry.reading_text?]
    rfl
  unfold Listing.ofEntries
  rw [hreadings,← hlist]
  change (SymbolList.ofSorted (ListedSymbol.inOrder _) >>= _) = _
  rw [SymbolList.ofSorted_inOrder]
  rfl

theorem SymbolList.ext {list list' : SymbolList} (h : list.symbols = list'.symbols) :
    list = list' := by
  cases list
  cases list'
  cases h
  rfl

theorem SymbolList.sort_reordered {symbols symbols' : List ListedSymbol}
    (hperm : symbols'.Perm symbols) (h : symbols.Pairwise fun a b => a.entry.key ≠ b.entry.key) :
    sort symbols' = sort symbols :=
  SymbolList.ext ((sort_sorted symbols').unique ((sort_sorted symbols).reordered hperm h))

theorem nodup_eraseDups {α : Type} [BEq α] [LawfulBEq α] (xs : List α) : xs.eraseDups.Nodup := by
  match xs with
  | [] => simp
  | a :: xs =>
    rw [List.eraseDups_cons,List.nodup_cons]
    refine ⟨by simp [List.mem_eraseDups],nodup_eraseDups _⟩
termination_by xs.length
decreasing_by
  have hlength := List.length_filter_le (fun b => !b == a) xs
  simp only [List.length_cons]
  omega

theorem SymbolList.rawNames_sort (symbols : List ListedSymbol) :
    (sort symbols).rawNames.Nodup ∧ ∀ name, name ∈ (sort symbols).rawNames ↔
      ∃ symbol ∈ symbols, symbol.entry.name = name := by
  refine ⟨nodup_eraseDups _,fun name => ?_⟩
  rw [rawNames,List.mem_eraseDups,List.mem_map]
  simp only [(sort_sorted symbols).perm.mem_iff]

/-- Of the entries of its name, one with the lowest address, and of those the first. -/
def SymbolEntry.LowestFirst (entries : List SymbolEntry) (entry : SymbolEntry) : Prop :=
  ∃ before after, entries = before ++ entry :: after ∧
    (∀ other ∈ before, other.name = entry.name → entry.address < other.address) ∧
    ∀ other ∈ after, other.name = entry.name → entry.address ≤ other.address

theorem SymbolEntry.LowestFirst.unique {entries : List SymbolEntry} {a b : SymbolEntry}
    (ha : LowestFirst entries a) (hb : LowestFirst entries b) (h : a.name = b.name) : a = b := by
  obtain ⟨before,after,rfl,hbefore,hafter⟩ := ha
  obtain ⟨before',after',hentries,hbefore',hafter'⟩ := hb
  rcases List.append_eq_append_iff.mp hentries with ⟨between,rfl,hrest⟩ | ⟨between,rfl,hrest⟩
  · cases between with
    | nil => exact (List.cons.inj hrest).1
    | cons c between =>
      obtain ⟨rfl,rfl⟩ := List.cons.inj hrest
      have hlt := hbefore' a (by simp) h
      have hle := hafter b (by simp) h.symm
      omega
  · cases between with
    | nil => exact (List.cons.inj hrest).1.symm
    | cons c between =>
      obtain ⟨rfl,rfl⟩ := List.cons.inj hrest
      have hlt := hbefore b (by simp) h.symm
      have hle := hafter' a (by simp) h
      omega

/-- A raw name is looked up to the entry with the lowest address. -/
theorem SymbolList.find?_sort {entries : List SymbolEntry} {config : Config} {name : String}
    {symbol : ListedSymbol}
    (h : (sort (entries.map (·.listed config))).find? name = some symbol) :
    ∃ entry : SymbolEntry, entry.name = name ∧ entry.LowestFirst entries ∧
      symbol = entry.listed config := by
  have hnamed : ∀ a b : ListedSymbol, a.entry.key = b.entry.key →
      (a.entry.name == name) = (b.entry.name == name) := by
    intro a b hkey
    rw [(Prod.mk.inj (SymbolEntry.key_eq_iff.mp hkey)).2]
  have hfirst := (sort_sorted _).find?_eq hnamed h
  obtain ⟨hname,before,after,hsplit,hbefore,hafter⟩ := hfirst
  rw [beq_iff_eq] at hname
  obtain ⟨skipped,rest,rfl,rfl,hrest⟩ := List.map_eq_append_iff.mp hsplit
  obtain ⟨entry,others,rfl,rfl,rfl⟩ := List.map_eq_cons_iff.mp hrest
  refine ⟨entry,hname,⟨skipped,others,rfl,fun other hother hsame =>
    ?_,fun other hother hsame => ?_⟩,rfl⟩
  · refine (SymbolEntry.key_lt_iff hsame.symm).mp (hbefore _ (List.mem_map_of_mem hother) ?_)
    exact beq_iff_eq.mpr (hsame.trans hname)
  · refine (SymbolEntry.key_le_iff hsame.symm).mp (hafter _ (List.mem_map_of_mem hother) ?_)
    exact beq_iff_eq.mpr (hsame.trans hname)

theorem SymbolList.find?_sort_iff (entries : List SymbolEntry) (config : Config) (name : String)
    (symbol : ListedSymbol) :
    (sort (entries.map (·.listed config))).find? name = some symbol ↔
      ∃ entry : SymbolEntry, entry.name = name ∧ entry.LowestFirst entries ∧
      symbol = entry.listed config := by
  refine ⟨find?_sort,?_⟩
  rintro ⟨entry,rfl,hentry,rfl⟩
  obtain ⟨before,after,hentries,_⟩ := hentry
  have hmem : entry.listed config ∈ (sort (entries.map (·.listed config))).symbols :=
    (sort_sorted _).perm.mem_iff.mpr (List.mem_map_of_mem (by simp [hentries]))
  cases hfind : (sort (entries.map (·.listed config))).find? entry.name with
  | none => exact absurd (List.find?_eq_none.mp hfind _ hmem) (by simp [SymbolEntry.listed])
  | some symbol =>
    obtain ⟨found,hname,hfound,rfl⟩ := find?_sort hfind
    rw [hfound.unique ⟨before,after,hentries,‹_›⟩ hname]

theorem SymbolList.find?_sort_isSome (symbols : List ListedSymbol) (name : String) :
    ((sort symbols).find? name).isSome = true ↔ ∃ symbol ∈ symbols, symbol.entry.name = name := by
  simp only [find?,List.find?_isSome,beq_iff_eq,(sort_sorted symbols).perm.mem_iff]

theorem SymbolEntry.listed_eq_none_iff (entry : SymbolEntry) (config : Config) :
    (entry.listed config).demangled = none ↔
    ∃ e, demangle entry.name config = .error (.error e) := by
  unfold listed
  rcases (demangle_outcome entry.name config).cases with ⟨text,htext,_⟩ | ⟨e,he⟩
  · simp [htext,Except.toOption]
  · simp [he,Except.toOption]

theorem SymbolEntry.listed_isSome (entry : SymbolEntry) (config : Config) :
    (entry.listed config).demangled.isSome = (demangle entry.name config).isOk := by
  unfold listed
  cases demangle entry.name config <;> rfl

/-- Entries that come in another order are listed alike if no two have one address and one name. -/
theorem Listing.ofEntries_reordered {entries entries' : List SymbolEntry} (config : Config)
    (hperm : entries'.Perm entries)
    (h : entries.Pairwise fun a b => (a.address,a.name) ≠ (b.address,b.name)) :
    ofEntries entries' config = ofEntries entries config := by
  have hkeys : (entries.map (·.listed config)).Pairwise fun a b => a.entry.key ≠ b.entry.key := by
    rw [List.pairwise_map]
    exact h.imp fun hne hkey => hne (SymbolEntry.key_eq_iff.mp hkey)
  rw [ofEntries_eq,ofEntries_eq,SymbolList.sort_reordered (hperm.map _) hkeys,
    (hperm.map _).count_eq]

/-- Whatever the entries are, each is listed once, in a stable order by address and name, with
what its own name says; a raw name is looked up to the entry with the lowest address, and of those
to the first. -/
theorem symbols_are_listed_faithfully (entries : List SymbolEntry) (config : Config) :
    ∃ listing, Listing.ofEntries entries config = .ok listing ∧
      StablySorted (fun symbol => symbol.entry.key) (entries.map (·.listed config))
        listing.list.symbols ∧
      (∀ entry : SymbolEntry, (entry.listed config).demangled = none ↔
        ∃ e, demangle entry.name config = .error (.error e)) ∧
      (∀ entries', entries'.Perm entries →
        (entries.Pairwise fun a b => (a.address,a.name) ≠ (b.address,b.name)) →
        Listing.ofEntries entries' config = .ok listing) ∧
      listing.list.rawNames.Nodup ∧
      (∀ name, name ∈ listing.list.rawNames ↔ ∃ entry ∈ entries, entry.name = name) ∧
      (∀ name, (listing.list.find? name).isSome = true ↔ name ∈ listing.list.rawNames) ∧
      (∀ name symbol, listing.list.find? name = some symbol ↔
        ∃ entry : SymbolEntry, entry.name = name ∧ entry.LowestFirst entries ∧
          symbol = entry.listed config) ∧
      listing.list.demangledCount = entries.countP
        (fun entry => (demangle entry.name config).isOk) ∧
      SymbolList.ofSorted listing.list.symbols = .ok listing.list := by
  obtain ⟨hnodup,hnames⟩ := SymbolList.rawNames_sort (entries.map (·.listed config))
  have hsorted := SymbolList.sort_sorted (entries.map (·.listed config))
  refine ⟨_,Listing.ofEntries_eq entries config,hsorted,
    (SymbolEntry.listed_eq_none_iff · config),?_,
    hnodup,?_,?_,SymbolList.find?_sort_iff entries config,?_,
    SymbolList.ofSorted_inOrder _⟩
  · intro entries' hperm h
    rw [Listing.ofEntries_reordered config hperm h,Listing.ofEntries_eq]
  · intro name
    rw [hnames]
    simp [SymbolEntry.listed]
  · intro name
    rw [SymbolList.find?_sort_isSome,hnames]
  · change List.countP _ (SymbolList.sort _).symbols = _
    rw [hsorted.perm.countP_eq,List.countP_map]
    simp only [Function.comp_def,SymbolEntry.listed_isSome]

theorem symbols_are_listed_faithfully_twice :
    let late : SymbolEntry := ⟨".symtab","_Z1fv",8,1,"STT_FUNC",by decide⟩
    let early : SymbolEntry := ⟨".dynsym","_Z1fv",4,1,"STT_FUNC",by decide⟩
    let main : SymbolEntry := ⟨".symtab","main",4,1,"STT_FUNC",by decide⟩
    ∃ listing, Listing.ofEntries [late,early,main] .standard = .ok listing ∧
      Listing.ofEntries [main,late,early] .standard = .ok listing ∧
      listing.list.find? "_Z1fv" = some (early.listed .standard) ∧
      listing.list.demangledCount = 2 := by
  intro late early main
  obtain ⟨listing,hlisting,_,_,hreordered,_,_,_,hfind,hcount,_⟩ :=
    symbols_are_listed_faithfully [late,early,main] .standard
  have hperm : [main,late,early].Perm [late,early,main] := by decide
  refine ⟨listing,hlisting,hreordered _ hperm (by decide),?_,?_⟩
  · refine (hfind _ _).mpr ⟨early,rfl,⟨[late],[main],rfl,?_,?_⟩,rfl⟩
    · decide
    · decide
  · rw [hcount]
    decide +kernel

end MangledNames
