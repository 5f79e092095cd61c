import Mathlib
import PipelineRegistry.Proofs.Text.Lossy
import PipelineRegistry.Storage.Disk
import PipelineRegistry.Workspace

/-! # The names in a path

`parent` and `withFileName` cut and join the bytes of a path; a disk only sees the names that stand
between the separators.  Here both are brought together: a path leads through the names of its
parent, perhaps through some `.`, and then to its file name, and the draft of a document leads
through the names of the same parent to a different name.  A name that is joined to a path that ends in
a file name is cut off again by `parent`, so that the document below a home directory has the directory
of the registry as its parent. -/

namespace PipelineRegistry.Path

/-! ### Texts -/

theorem text?_ofString (s : String) : (ofString s).text? = some s := dif_pos s.isValidUTF8

/-- A path with a text is the path written as that text. -/
theorem ofString_of_text? {p : Path} {s : String} (h : p.text? = some s) : ofString s = p := by
  unfold text? String.fromUTF8? at h
  split at h
  · cases h
    rfl
  · cases h

/-- A path that is a text is shown as it is. -/
theorem display_ofString (s : String) : (ofString s).display = s := Text.lossy_toUTF8 s

/-! ### Pieces -/

theorem pieces_ne_nil (bytes : List UInt8) : pieces bytes ≠ [] := by
  cases bytes with
  | nil => exact List.cons_ne_nil _ _
  | cons b rest =>
      unfold pieces
      split
      · exact List.cons_ne_nil _ _
      · split <;> exact List.cons_ne_nil _ _

theorem pieces_separator (rest : List UInt8) : pieces (separator :: rest) = [] :: pieces rest := by
  rw [pieces, if_pos rfl]

theorem pieces_append_separator (front rest : List UInt8) :
    pieces (front ++ separator :: rest) = pieces front ++ pieces rest := by
  induction front with
  | nil => exact pieces_separator rest
  | cons b front ih =>
      obtain ⟨piece, others, hpieces⟩ := List.exists_cons_of_ne_nil (pieces_ne_nil front)
      rw [List.cons_append, pieces, pieces, ih, hpieces]
      split <;> rfl

theorem pieces_of_not_mem {name : List UInt8} (hname : separator ∉ name) : pieces name = [name] := by
  induction name with
  | nil => rfl
  | cons b name ih =>
      rw [List.mem_cons, not_or] at hname
      rw [pieces, if_neg (Ne.symm hname.1), ih hname.2]

theorem not_mem_of_mem_pieces {bytes piece : List UInt8} (hpiece : piece ∈ pieces bytes) :
    separator ∉ piece := by
  induction bytes generalizing piece with
  | nil =>
      rw [pieces, List.mem_singleton] at hpiece
      rw [hpiece]
      exact List.not_mem_nil
  | cons b rest ih =>
      obtain ⟨first, others, hpieces⟩ := List.exists_cons_of_ne_nil (pieces_ne_nil rest)
      rw [hpieces] at ih
      rw [pieces, hpieces] at hpiece
      split at hpiece
      · rcases List.mem_cons.mp hpiece with rfl | hmem
        · exact List.not_mem_nil
        · exact ih hmem
      · rename_i hb
        rcases List.mem_cons.mp hpiece with rfl | hmem
        · rw [List.mem_cons, not_or]
          exact ⟨Ne.symm hb, ih List.mem_cons_self⟩
        · exact ih (List.mem_cons_of_mem _ hmem)

theorem pieces_joined {ps : List (List UInt8)} (hne : ps ≠ []) (hps : ∀ piece ∈ ps, separator ∉ piece) :
    pieces (joined ps) = ps := by
  induction ps with
  | nil => exact absurd rfl hne
  | cons piece ps ih =>
      have hpiece := hps piece List.mem_cons_self
      cases ps with
      | nil => exact pieces_of_not_mem hpiece
      | cons next others =>
          have hrest := ih (List.cons_ne_nil _ _) fun q hq => hps q (List.mem_cons_of_mem _ hq)
          rw [joined, pieces_append_separator, pieces_of_not_mem hpiece, hrest, List.singleton_append]
          exact List.cons_ne_nil _ _

theorem joined_pieces (bytes : List UInt8) : joined (pieces bytes) = bytes := by
  induction bytes with
  | nil => rfl
  | cons b rest ih =>
      obtain ⟨first, others, hpieces⟩ := List.exists_cons_of_ne_nil (pieces_ne_nil rest)
      rw [hpieces] at ih
      rw [pieces, hpieces]
      split
      · rename_i hb
        rw [joined, ih, hb]
        · rfl
        · exact List.cons_ne_nil _ _
      · cases others with
        | nil => exact congrArg (b :: ·) ih
        | cons next others => exact congrArg (b :: ·) ih

theorem joined_prefix {ps qs : List (List UInt8)} (h : ps <+: qs) : joined ps <+: joined qs := by
  induction ps generalizing qs with
  | nil => exact List.nil_prefix
  | cons piece ps ih =>
      obtain ⟨tail, rfl⟩ := h
      rcases ps with _ | ⟨next, ps⟩
      · cases tail with
        | nil => exact List.prefix_rfl
        | cons next tail => exact List.prefix_append piece _
      · have hrest := ih (List.prefix_append (next :: ps) tail)
        exact (List.prefix_append_right_inj piece).mpr
          ((List.prefix_cons_inj separator).mpr hrest)

/-! ### Names -/

/-- The names among some pieces. -/
def named (ps : List (List UInt8)) : List FileName := ps.filter (· ≠ [])

theorem named_append (ps qs : List (List UInt8)) : named (ps ++ qs) = named ps ++ named qs :=
  List.filter_append ps qs

theorem named_cons_nil (ps : List (List UInt8)) : named ([] :: ps) = named ps := rfl

theorem named_singleton {name : FileName} (hname : name ≠ []) : named [name] = [name] :=
  List.filter_cons_of_pos (decide_eq_true hname)

theorem named_pieces_joined {ps : List (List UInt8)} (hps : ∀ piece ∈ ps, separator ∉ piece) :
    named (pieces (joined ps)) = named ps := by
  by_cases hne : ps = []
  · rw [hne]
    rfl
  · rw [pieces_joined hne hps]

theorem eq_currentName_of_mem_named {ps : List (List UInt8)} (hps : ∀ piece ∈ ps, isSkipped piece)
    {name : FileName} (hname : name ∈ named ps) : name = currentName := by
  obtain ⟨hmem, hne⟩ := List.mem_filter.mp hname
  rcases of_decide_eq_true (hps name hmem) with hnil | hdot
  · exact absurd hnil (of_decide_eq_true hne)
  · exact hdot

theorem named_pieces_append {a x : List UInt8}
    (h : a = [] ∨ a = [separator] ∨ x = [] ∨ x.head? = some separator) :
    named (pieces (a ++ x)) = named (pieces a) ++ named (pieces x) := by
  rcases h with rfl | rfl | rfl | hx
  · rfl
  · change named (pieces (separator :: x)) = named (pieces x)
    rw [pieces_separator, named_cons_nil]
  · change named (pieces (a ++ [])) = named (pieces a) ++ []
    rw [List.append_nil, List.append_nil]
  · obtain ⟨rest, rfl⟩ := List.head?_eq_some_iff.mp hx
    rw [pieces_append_separator, named_append, pieces_separator, named_cons_nil]

/-- The anchor is the beginning of the path, and a dot is an anchor only in front of a separator or
nothing. -/
theorem anchor_eq (p : Path) : p.bytes = p.anchor ++ p.bytes.drop p.anchor.length ∧
    (p.anchor = [] ∨ p.anchor = [separator] ∨ p.anchor = [dot] ∧
      (p.bytes.drop p.anchor.length = [] ∨ (p.bytes.drop p.anchor.length).head? = some separator)) := by
  obtain ⟨bytes⟩ := p
  rcases bytes with _ | ⟨b, _ | ⟨c, rest⟩⟩
  · exact ⟨rfl, .inl rfl⟩
  · by_cases hb : b = separator ∨ b = dot
    · have hanchor : anchor ⟨[b]⟩ = [b] := if_pos hb
      rw [hanchor]
      refine ⟨rfl, .inr ?_⟩
      rcases hb with rfl | rfl
      · exact .inl rfl
      · exact .inr ⟨rfl, .inl rfl⟩
    · have hanchor : anchor ⟨[b]⟩ = [] := if_neg hb
      rw [hanchor]
      exact ⟨rfl, .inl rfl⟩
  · by_cases hb : b = separator ∨ (b = dot ∧ c = separator)
    · have hanchor : anchor ⟨b :: c :: rest⟩ = [b] := if_pos hb
      rw [hanchor]
      refine ⟨rfl, .inr ?_⟩
      rcases hb with rfl | ⟨rfl, rfl⟩
      · exact .inl rfl
      · exact .inr ⟨rfl, .inr rfl⟩
    · have hanchor : anchor ⟨b :: c :: rest⟩ = [] := if_neg hb
      rw [hanchor]
      exact ⟨rfl, .inl rfl⟩

/-- A path has the names of its anchor and those behind it. -/
theorem names_eq (p : Path) : p.names = named (pieces p.anchor) ++ named p.body := by
  obtain ⟨hbytes, hanchor⟩ := p.anchor_eq
  have happend := named_pieces_append (hanchor.imp_right (Or.imp_right And.right))
  rw [← hbytes] at happend
  exact happend

/-- The `.` that stands for the separator at the end of a path. -/
def slash (p : Path) : List FileName := if p.endsInSeparator then [currentName] else []

/-- The names a path leads through; at the end of a separator only a directory can be meant. -/
def route (p : Path) : List FileName := p.names ++ p.slash

theorem eq_currentName_of_mem_slash {p : Path} {name : FileName} (hname : name ∈ p.slash) :
    name = currentName := by
  unfold slash at hname
  split at hname
  · exact List.mem_singleton.mp hname
  · cases hname

theorem parentName_not_mem_append_slash {names : List FileName} (h : parentName ∉ names) (p : Path) :
    parentName ∉ names ++ p.slash := by
  intro hmem
  rcases List.mem_append.mp hmem with hmem | hmem
  · exact h hmem
  · exact absurd (eq_currentName_of_mem_slash hmem) (by decide)

theorem filter_eq_nil_of_dots {names : List FileName} (h : ∀ name ∈ names, name = currentName) :
    names.filter (· ≠ currentName) = [] := by
  rw [List.filter_eq_nil_iff]
  intro name hname
  rw [decide_eq_true_eq, not_not]
  exact h name hname

theorem eq_currentName_of_mem_anchor {p : Path} {name : FileName}
    (hname : name ∈ named (pieces p.anchor)) : name = currentName := by
  rcases p.anchor_eq.2 with hanchor | hanchor | ⟨hanchor, -⟩
  · rw [hanchor] at hname
    cases hname
  · rw [hanchor] at hname
    cases hname
  · rw [hanchor] at hname
    exact List.mem_singleton.mp hname

/-! ### The last component -/

theorem exists_trimmed_append (ps : List (List UInt8)) :
    ∃ tail, ps = trimmed ps ++ tail ∧ ∀ piece ∈ tail, isSkipped piece := by
  refine ⟨(ps.reverse.takeWhile isSkipped).reverse, ?_, ?_⟩
  · have hsplit : ps.reverse.takeWhile isSkipped ++ ps.reverse.dropWhile isSkipped = ps.reverse :=
      List.takeWhile_append_dropWhile
    rw [trimmed, ← List.reverse_append, hsplit, List.reverse_reverse]
  · intro piece hpiece
    exact List.mem_takeWhile_imp (List.mem_reverse.mp hpiece)

theorem getLast?_trimmed (ps : List (List UInt8)) :
    (trimmed ps).getLast? = (ps.filter (!isSkipped ·)).getLast? := by
  have hdrop : ps.reverse.dropWhile isSkipped = ps.reverse.dropWhile (fun piece => !!isSkipped piece) := by
    simp only [Bool.not_not]
  rw [trimmed, List.getLast?_reverse, hdrop, ← List.find?_eq_head?_dropWhile_not, ← List.head?_filter,
    List.filter_reverse, List.head?_reverse]

theorem trimmed_of_getLast? {ps : List (List UInt8)} {last : FileName} 
    (h : ps.getLast? = some last) (hlast : isSkipped last = false) : trimmed ps = ps := by
  obtain ⟨init, rfl⟩ := List.getLast?_eq_some_iff.mp h
  rw [trimmed, List.reverse_concat, List.dropWhile_cons_of_neg (by simp [hlast]), ← List.reverse_concat,
    List.reverse_reverse]

theorem not_isSkipped_of_last? {p : Path} {last : FileName} (h : p.last? = some last) :
    isSkipped last = false := by
  rw [last?, getLast?_trimmed] at h
  have hmem := List.mem_filter.mp (List.mem_of_getLast? h)
  exact Bool.not_eq_true' _ ▸ hmem.2

theorem ne_currentName_of_last? {p : Path} {last : FileName} (h : p.last? = some last) :
    last ≠ currentName := by
  rintro rfl
  exact Bool.noConfusion (not_isSkipped_of_last? h)

theorem last?_of_getLast?_names {p : Path} {name : FileName} (hname : p.names.getLast? = some name)
    (hdot : name ≠ currentName) : p.last? = some name := by
  rw [names_eq, List.getLast?_append] at hname
  have hbody : (named p.body).getLast? = some name := by
    rcases Option.or_eq_some_iff.mp hname with h | ⟨-, h⟩
    · exact h
    · exact absurd (eq_currentName_of_mem_anchor (List.mem_of_getLast? h)) hdot
  obtain ⟨init, hinit⟩ := List.getLast?_eq_some_iff.mp hbody
  have hname : (!isSkipped name) = true := by
    have hne : name ≠ [] := of_decide_eq_true (List.mem_filter.mp (List.mem_of_getLast? hbody)).2
    rw [isSkipped, Bool.not_eq_true', decide_eq_false_iff_not, not_or]
    exact ⟨hne, hdot⟩
  have hfilter : p.body.filter (!isSkipped ·) = (named p.body).filter (!isSkipped ·) := by
    rw [named, List.filter_filter]
    apply List.filter_congr
    intro piece _
    by_cases hnil : piece = []
    · rw [hnil]
      rfl
    · rw [decide_eq_true hnil, Bool.and_true]
  have hlast : [name].filter (!isSkipped ·) = [name] := List.filter_cons_of_pos hname
  rw [last?, getLast?_trimmed, hfilter, hinit, List.filter_append, hlast, List.getLast?_concat]

/-! ### The parent -/

/-- The pieces in front of the last component, without those at their end that stand for nothing. -/
def front (p : Path) : List (List UInt8) := trimmed (trimmed p.body).dropLast

theorem parent_of_last? {p : Path} {last : FileName} (h : p.last? = some last) :
    p.parent = some ⟨p.anchor ++ joined p.front⟩ := by
  unfold parent
  split
  · rename_i hbody
    rw [last?, hbody] at h
    cases h
  · rfl

theorem names_parent_of_last?_eq_none {p dir : Path} (h : p.last? = none) (hdir : p.parent = some dir) :
    dir.names = [] := by
  unfold parent at hdir
  simp only [List.getLast?_eq_none_iff.mp h] at hdir
  split at hdir
  · obtain rfl := Option.some_inj.mp hdir
    rfl
  · cases hdir

/-- Behind its anchor a path is what stands in front of its last component, then this component, and
otherwise pieces that stand for nothing. -/
theorem exists_body_eq {p : Path} {last : FileName} (h : p.last? = some last) :
    ∃ between behind, p.body = p.front ++ between ++ last :: behind ∧
      ∀ piece ∈ between ++ behind, isSkipped piece := by
  obtain ⟨behind, hbody, hbehind⟩ := exists_trimmed_append p.body
  obtain ⟨between, hfront, hbetween⟩ := exists_trimmed_append (trimmed p.body).dropLast
  have hlast : (trimmed p.body).dropLast ++ [last] = trimmed p.body :=
    List.dropLast_append_getLast? last h
  refine ⟨between, behind, ?_, ?_⟩
  · calc p.body = trimmed p.body ++ behind := hbody
      _ = (trimmed p.body).dropLast ++ last :: behind := by
        conv_lhs => rw [← hlast, List.append_assoc, List.singleton_append]
      _ = p.front ++ between ++ last :: behind := by
        rw [hfront]
        rfl
  · intro piece hpiece
    rcases List.mem_append.mp hpiece with hmem | hmem
    · exact hbetween piece hmem
    · exact hbehind piece hmem

theorem named_pieces_anchor_joined {p : Path} {ps : List (List UInt8)} (hps : ps <+: p.body) :
    named (pieces (p.anchor ++ joined ps)) = named (pieces p.anchor) ++ named ps := by
  have hjoined : named (pieces (joined ps)) = named ps :=
    named_pieces_joined fun piece hpiece => not_mem_of_mem_pieces (hps.subset hpiece)
  rw [← hjoined]
  apply named_pieces_append
  rcases p.anchor_eq.2 with hanchor | hanchor | ⟨-, hrest⟩
  · exact .inl hanchor
  · exact .inr (.inl hanchor)
  · refine .inr (.inr ?_)
    -- behind a dot the first piece is empty, so that the joined pieces begin with a separator
    have hfirst : ∃ others, p.body = [] :: others := by
      rcases hrest with hnil | hhead
      · exact ⟨[], congrArg pieces hnil⟩
      · obtain ⟨rest, heq⟩ := List.head?_eq_some_iff.mp hhead
        exact ⟨pieces rest, (congrArg pieces heq).trans (pieces_separator rest)⟩
    obtain ⟨others, hbody⟩ := hfirst
    obtain ⟨tail, htail⟩ := hps
    rw [hbody] at htail
    rcases ps with _ | ⟨first, _ | ⟨next, ps⟩⟩
    · exact .inl rfl
    · rw [(List.cons.inj htail).1]
      exact .inl rfl
    · rw [(List.cons.inj htail).1]
      exact .inr rfl

/-- A path leads through the names of its parent, perhaps through some `.`, to its last component. -/
theorem exists_names_eq {p dir : Path} {last : FileName} (hlast : p.last? = some last)
    (hdir : p.parent = some dir) : ∃ between behind, p.names = dir.names ++ between ++ last :: behind ∧
      ∀ name ∈ between ++ behind, name = currentName := by
  rw [parent_of_last? hlast] at hdir
  obtain rfl := Option.some_inj.mp hdir
  obtain ⟨between, behind, hbody, hskipped⟩ := exists_body_eq hlast
  have hnames : Path.names ⟨p.anchor ++ joined p.front⟩ = named (pieces p.anchor) ++ named p.front :=
    named_pieces_anchor_joined ⟨between ++ last :: behind, by rw [hbody, List.append_assoc]⟩
  have hname : last ≠ [] := by
    rintro rfl
    exact Bool.noConfusion (not_isSkipped_of_last? hlast)
  refine ⟨named between, named behind, ?_, ?_⟩
  · rw [hnames, names_eq, hbody, named_append, named_append, ← List.singleton_append, named_append,
      named_singleton hname, List.singleton_append]
    simp only [List.append_assoc]
  · intro name hmem
    rw [← named_append] at hmem
    exact eq_currentName_of_mem_named hskipped hmem

/-- A path begins with its parent. -/
theorem parent_prefix {p dir : Path} {last : FileName} (hlast : p.last? = some last)
    (hdir : p.parent = some dir) : dir.bytes <+: p.bytes := by
  rw [parent_of_last? hlast] at hdir
  obtain rfl := Option.some_inj.mp hdir
  obtain ⟨between, behind, hbody, -⟩ := exists_body_eq hlast
  have hfront : joined p.front <+: joined p.body := by
    refine joined_prefix ?_
    rw [hbody, List.append_assoc]
    exact List.prefix_append _ _
  rw [body, joined_pieces] at hfront
  rw [p.anchor_eq.1]
  exact (List.prefix_append_right_inj _).mpr hfront

theorem check_eq_ok_iff {p : Path} :
    p.check = .ok () ↔ 0 ∉ p.bytes ∧ p.bytes ≠ [] ∧ p.bytes.length ≤ maxLength := by
  unfold check
  split_ifs <;> simp_all

theorem check_of_prefix {p dir : Path} (h : dir.bytes <+: p.bytes) (hne : dir.bytes ≠ [])
    (hp : p.check = .ok ()) : dir.check = .ok () := by
  obtain ⟨hzero, -, hlength⟩ := check_eq_ok_iff.mp hp
  exact check_eq_ok_iff.mpr ⟨fun hmem => hzero (h.subset hmem), hne, h.length_le.trans hlength⟩

/-! ### File names -/

/-- What can be the name of a file: it is neither empty nor `.` nor `..`, and without separator. -/
structure IsFileName (name : FileName) : Prop where
  ne_nil : name ≠ []
  not_mem : separator ∉ name
  ne_current : name ≠ currentName
  ne_parent : name ≠ parentName

instance (name : FileName) : Decidable (IsFileName name) :=
  decidable_of_iff (name ≠ [] ∧ separator ∉ name ∧ name ≠ currentName ∧ name ≠ parentName)
    ⟨fun ⟨hnil, hsep, hcurrent, hparent⟩ => ⟨hnil, hsep, hcurrent, hparent⟩,
      fun h => ⟨h.ne_nil, h.not_mem, h.ne_current, h.ne_parent⟩⟩

theorem IsFileName.isSkipped_eq_false {name : FileName} (h : IsFileName name) : isSkipped name = false :=
  decide_eq_false (not_or.mpr ⟨h.ne_nil, h.ne_current⟩)

theorem anchor_of_isFileName {name : FileName} (h : IsFileName name) : anchor ⟨name⟩ = [] := by
  obtain ⟨b, rest, rfl⟩ := List.exists_cons_of_ne_nil h.ne_nil
  obtain ⟨hb, hrest⟩ := not_or.mp (mt List.mem_cons.mpr h.not_mem)
  cases rest with
  | nil =>
      have hdot : b ≠ dot := fun heq => h.ne_current (congrArg ([·]) heq)
      exact if_neg (not_or.mpr ⟨Ne.symm hb, hdot⟩)
  | cons c rest =>
      have hc : c ≠ separator := fun heq => hrest (heq ▸ List.mem_cons_self)
      exact if_neg (not_or.mpr ⟨Ne.symm hb, fun hdot => hc hdot.2⟩)

/-- Behind its last separator a path has its file name, and then it ends. -/
theorem names_of_lastPiece {p : Path} {name : FileName} (h : (pieces p.bytes).getLast? = some name)
    (hname : IsFileName name) : p.names.getLast? = some name ∧ p.endsInSeparator = false := by
  obtain ⟨init, hinit⟩ := List.getLast?_eq_some_iff.mp h
  constructor
  · change (named (pieces p.bytes)).getLast? = some name
    rw [hinit, named_append, named_singleton hname.ne_nil, List.getLast?_concat]
  · rw [endsInSeparator, decide_eq_false_iff_not]
    intro hend
    obtain ⟨front, hfront⟩ := List.getLast?_eq_some_iff.mp hend
    rw [hfront, pieces_append_separator] at h
    have hnil : (pieces front ++ [[]]).getLast? = some ([] : List UInt8) := List.getLast?_concat
    exact hname.ne_nil (Option.some_inj.mp (h.symm.trans hnil))

/-- Where the last piece of a path is a name, it stands behind the anchor. -/
theorem getLast?_body {p : Path} {name : FileName} (h : (pieces p.bytes).getLast? = some name)
    (hname : IsFileName name) : p.body.getLast? = some name := by
  have hcons : ∀ piece rest, (piece :: pieces rest).getLast? = (pieces rest).getLast? :=
    fun piece rest => List.getLast?_cons_of_ne_nil (pieces_ne_nil rest)
  obtain ⟨hbytes, hanchor⟩ := p.anchor_eq
  rw [hbytes] at h
  rw [body]
  generalize p.bytes.drop p.anchor.length = rest at h hanchor ⊢
  rcases hanchor with hanchor | hanchor | ⟨hanchor, hnil | hhead⟩
  · rwa [hanchor] at h
  · rwa [hanchor, List.singleton_append, pieces_separator, hcons] at h
  · rw [hanchor, hnil] at h
    exact absurd (Option.some_inj.mp h).symm hname.ne_current
  · obtain ⟨behind, rfl⟩ := List.head?_eq_some_iff.mp hhead
    rw [hanchor, pieces_append_separator] at h
    rw [pieces_separator, hcons]
    exact (hcons [dot] behind).symm.trans h

theorem isFileName_of_fileName {p : Path} {name : FileName} (h : p.fileName = some name) :
    IsFileName name := by
  obtain ⟨hlast, hparent⟩ := Option.filter_eq_some_iff.mp h
  have hskipped := not_isSkipped_of_last? hlast
  rw [isSkipped, decide_eq_false_iff_not, not_or] at hskipped
  obtain ⟨_, behind, hbody, -⟩ := exists_body_eq hlast
  have hmem : name ∈ p.body := by
    rw [hbody]
    exact List.mem_append_right _ List.mem_cons_self
  exact ⟨hskipped.1, not_mem_of_mem_pieces hmem, hskipped.2, of_decide_eq_true hparent⟩

theorem fileName_of_getLast?_names {p : Path} {name : FileName}
    (hname : p.names.getLast? = some name) (hcurrent : name ≠ currentName)
    (hparent : name ≠ parentName) : p.fileName = some name :=
  Option.filter_eq_some_iff.mpr
    ⟨last?_of_getLast?_names hname hcurrent, decide_eq_true hparent⟩

/-! ### Joining a name -/

/-- A name is joined to a path behind a separator, unless the path is empty. -/
theorem join_cases (dir : Path) {name : FileName} (hname : separator ∉ name) :
    dir.bytes = [] ∧ dir.join ⟨name⟩ = ⟨name⟩ ∨
    (∃ init, dir.bytes = init ++ [separator] ∧ dir.join ⟨name⟩ = ⟨init ++ separator :: name⟩) ∨
    dir.bytes ≠ [] ∧ dir.join ⟨name⟩ = ⟨dir.bytes ++ separator :: name⟩ := by
  have hhead : name.head? ≠ some separator := fun h => hname (List.mem_of_head? h)
  rw [join, if_neg hhead]
  split
  · rename_i hdir
    rcases hdir with hnil | hlast
    · rw [hnil]
      exact .inl ⟨rfl, rfl⟩
    · obtain ⟨init, hinit⟩ := List.getLast?_eq_some_iff.mp hlast
      rw [hinit, List.append_assoc]
      exact .inr (.inl ⟨init, rfl, rfl⟩)
  · rename_i hdir
    exact .inr (.inr ⟨(not_or.mp hdir).1, rfl⟩)

theorem names_join (dir : Path) {name : FileName} (hne : name ≠ []) (hname : separator ∉ name) :
    (dir.join ⟨name⟩).names = dir.names ++ [name] := by
  have hpieces : named (pieces name) = [name] := by
    rw [pieces_of_not_mem hname, named_singleton hne]
  rcases join_cases dir hname with ⟨hnil, hjoin⟩ | ⟨init, hinit, hjoin⟩ | ⟨-, hjoin⟩
  · rw [hjoin]
    change named (pieces name) = named (pieces dir.bytes) ++ [name]
    rw [hnil, hpieces]
    rfl
  · rw [hjoin]
    change named (pieces (init ++ separator :: name)) = named (pieces dir.bytes) ++ [name]
    rw [hinit, pieces_append_separator, pieces_append_separator, named_append, named_append, hpieces]
    exact congrArg (· ++ [name]) (List.append_nil _).symm
  · rw [hjoin]
    change named (pieces (dir.bytes ++ separator :: name)) = named (pieces dir.bytes) ++ [name]
    rw [pieces_append_separator, named_append, hpieces]

/-- What has been joined stands behind the last separator. -/
theorem lastPiece_join (dir : Path) {name : FileName} (h : IsFileName name) :
    (pieces (dir.join ⟨name⟩).bytes).getLast? = some name := by
  have hpieces : ∀ bytes, (pieces (bytes ++ separator :: name)).getLast? = some name := by
    intro bytes
    rw [pieces_append_separator, pieces_of_not_mem h.not_mem, List.getLast?_concat]
  rcases join_cases dir h.not_mem with ⟨-, hjoin⟩ | ⟨init, -, hjoin⟩ | ⟨-, hjoin⟩
  · rw [hjoin, pieces_of_not_mem h.not_mem]
    rfl
  · rw [hjoin]
    exact hpieces init
  · rw [hjoin]
    exact hpieces dir.bytes

theorem fileName_join (dir : Path) {name : FileName} (h : IsFileName name) :
    (dir.join ⟨name⟩).fileName = some name :=
  fileName_of_getLast?_names (names_of_lastPiece (lastPiece_join dir h) h).1 h.ne_current h.ne_parent

/-- What is put behind a separator leaves the anchor as it is. -/
theorem anchor_append_separator {bytes : List UInt8} (h : bytes ≠ []) (rest : List UInt8) :
    anchor ⟨bytes ++ separator :: rest⟩ = anchor ⟨bytes⟩ := by
  rcases bytes with _ | ⟨b, _ | ⟨c, bytes⟩⟩
  · exact absurd rfl h
  · simp [anchor]
  · rfl

theorem anchor_join (dir : Path) {name : FileName} (h : IsFileName name) :
    (dir.join ⟨name⟩).anchor = dir.anchor := by
  obtain ⟨bytes⟩ := dir
  rcases join_cases ⟨bytes⟩ h.not_mem with ⟨rfl, hjoin⟩ | ⟨init, rfl, hjoin⟩ | ⟨hne, hjoin⟩
  · rw [hjoin]
    exact anchor_of_isFileName h
  · rw [hjoin]
    by_cases hinit : init = []
    · rw [hinit]
      cases name <;> simp [anchor]
    · rw [anchor_append_separator hinit, anchor_append_separator hinit]
  · rw [hjoin]
    exact anchor_append_separator hne name

/-- A path that ends in a file name is the parent of what is joined to it. -/
theorem parent_join {dir : Path} {last name : FileName}
    (h : (pieces dir.bytes).getLast? = some last) (hlast : IsFileName last) (hname : IsFileName name) :
    (dir.join ⟨name⟩).parent = some dir := by
  have hjoin : (dir.join ⟨name⟩).bytes = dir.bytes ++ separator :: name := by
    obtain ⟨-, hend⟩ := names_of_lastPiece h hlast
    rcases join_cases dir hname.not_mem with ⟨hnil, -⟩ | ⟨init, hinit, -⟩ | ⟨-, hjoin⟩
    · rw [hnil] at h
      exact absurd (Option.some_inj.mp h).symm hlast.ne_nil
    · rw [endsInSeparator, hinit, List.getLast?_concat] at hend
      exact absurd rfl (of_decide_eq_false hend)
    · rw [hjoin]
  have hbody : (dir.join ⟨name⟩).body = dir.body ++ [name] := by
    have hlength : dir.anchor.length ≤ dir.bytes.length := by
      conv_rhs => rw [dir.anchor_eq.1, List.length_append]
      exact Nat.le_add_right _ _
    rw [body, anchor_join dir hname, hjoin, List.drop_append_of_le_length hlength,
      pieces_append_separator, pieces_of_not_mem hname.not_mem]
    rfl
  have hfront : (dir.join ⟨name⟩).front = dir.body := by
    rw [front, hbody, trimmed_of_getLast? List.getLast?_concat hname.isSkipped_eq_false,
      List.dropLast_concat, trimmed_of_getLast? (getLast?_body h hlast) hlast.isSkipped_eq_false]
  have hlast : (dir.join ⟨name⟩).last? = some name :=
    (Option.filter_eq_some_iff.mp (fileName_join dir hname)).1
  rw [parent_of_last? hlast, anchor_join dir hname, hfront, body, joined_pieces, ← dir.anchor_eq.1]

end PipelineRegistry.Path

namespace PipelineRegistry.Workspace

/-! ### The document below a home directory -/

theorem lastPiece_directory (home : Path) : (Path.pieces (directory home).bytes).getLast? =
    some (Path.ofString "workspace").bytes :=
  Path.lastPiece_join (root home) (by decide)

theorem fileName_document (home : Path) :
    (document home).fileName = some (Path.ofString "projects-structure.json").bytes :=
  Path.fileName_join (directory home) (by decide +kernel)

theorem parent_document (home : Path) : (document home).parent = some (directory home) :=
  Path.parent_join (lastPiece_directory home) (by decide) (by decide +kernel)

/-- The directory of a document below a home directory has a name. -/
theorem exists_parent_document (home : Path) : ∃ dir last, (document home).last? = some last ∧
    (document home).parent = some dir ∧ dir.bytes ≠ [] := by
  refine ⟨_, _, (Option.filter_eq_some_iff.mp (fileName_document home)).1, parent_document home, ?_⟩
  intro hnil
  have hlast := lastPiece_directory home
  rw [hnil] at hlast
  exact absurd hlast (by decide)

/-! ### Drafts -/

/-- The name of the draft of a document. -/
def draftName (document : Path) : FileName := document.fileName.getD [] ++ draftSuffix

theorem isFileName_draftName (document : Path) : Path.IsFileName (draftName document) := by
  have hsuffix : Path.separator ∉ draftSuffix := by decide
  have hlength : (draftName document).length = (document.fileName.getD []).length + 4 :=
    List.length_append
  refine ⟨?_, ?_, ?_, ?_⟩
  · intro h
    rw [h] at hlength
    cases hlength
  · rw [draftName, List.mem_append, not_or]
    refine ⟨?_, hsuffix⟩
    cases hname : document.fileName with
    | none => exact List.not_mem_nil
    | some name => exact (Path.isFileName_of_fileName hname).not_mem
  · intro h
    rw [h] at hlength
    change 1 = _ + 4 at hlength
    omega
  · intro h
    rw [h] at hlength
    change 2 = _ + 4 at hlength
    omega

theorem draftName_ne {document : Path} {name : FileName} (h : document.fileName = some name) :
    draftName document ≠ name := by
  intro heq
  have hlength : (draftName document).length = name.length + 4 := by
    rw [draftName, h]
    exact List.length_append
  rw [heq] at hlength
  omega

/-- The directory of a draft: the parent of the document, or a document that has no file name. -/
def draftDirectory (document : Path) : Path :=
  if document.fileName.isSome then document.parent.getD document else document

theorem draft_eq (document : Path) :
    draft document = (draftDirectory document).join ⟨draftName document⟩ := by
  unfold draft draftDirectory Path.withFileName draftName
  cases document.fileName with
  | none => rfl
  | some name => cases document.parent <;> rfl

theorem endsInSeparator_draft (document : Path) : (draft document).endsInSeparator = false := by
  have hname := isFileName_draftName document
  rw [draft_eq]
  exact (Path.names_of_lastPiece (Path.lastPiece_join _ hname) hname).2

theorem names_draft (document : Path) :
    (draft document).names = (draftDirectory document).names ++ [draftName document] := by
  have hname := isFileName_draftName document
  rw [draft_eq]
  exact Path.names_join _ hname.ne_nil hname.not_mem

/-- The ways to a document and to its draft part in front of the file name, if there is one. -/
theorem exists_route_eq (document : Path) : ∃ front rest, document.route = front ++ rest ∧
    (draft document).route = front ++ [draftName document] ∧ Path.parentName ∉ rest ∧
    rest.filter (· ≠ Path.currentName) = document.fileName.toList := by
  have hdraft : (draft document).route = (draft document).names := by
    rw [Path.route, Path.slash, endsInSeparator_draft]
    exact List.append_nil _
  rw [hdraft, names_draft, draftDirectory]
  cases hname : document.fileName with
  | none =>
      refine ⟨document.names, document.slash, rfl, rfl, ?_, ?_⟩
      · intro hmem
        exact absurd (Path.eq_currentName_of_mem_slash hmem) (by decide)
      · exact Path.filter_eq_nil_of_dots fun name => Path.eq_currentName_of_mem_slash
  | some name =>
      obtain ⟨hlast, -⟩ := Option.filter_eq_some_iff.mp hname
      have hparent := Path.parent_of_last? hlast
      obtain ⟨between, behind, hnames, hdots⟩ := Path.exists_names_eq hlast hparent
      have hfile := Path.isFileName_of_fileName hname
      have hdot : ∀ x ∈ between ++ (behind ++ document.slash), x = Path.currentName := by
        intro x hx
        rw [← List.append_assoc] at hx
        rcases List.mem_append.mp hx with hmem | hmem
        · exact hdots x hmem
        · exact Path.eq_currentName_of_mem_slash hmem
      rw [hparent]
      refine ⟨_, between ++ name :: (behind ++ document.slash), ?_, rfl, ?_, ?_⟩
      · rw [Path.route, hnames]
        simp only [List.append_assoc, List.cons_append]
        rfl
      · intro hmem
        rw [List.mem_append, List.mem_cons, or_left_comm, ← List.mem_append] at hmem
        rcases hmem with heq | hmem
        · exact hfile.ne_parent heq.symm
        · exact absurd (hdot _ hmem) (by decide)
      · have hbetween : between.filter (· ≠ Path.currentName) = [] :=
          Path.filter_eq_nil_of_dots fun x hx => hdot x (List.mem_append_left _ hx)
        have hbehind : (behind ++ document.slash).filter (· ≠ Path.currentName) = [] :=
          Path.filter_eq_nil_of_dots fun x hx => hdot x (List.mem_append_right _ hx)
        rw [List.filter_append, List.filter_cons_of_pos (by simpa using hfile.ne_current), hbetween,
          hbehind]
        rfl

end PipelineRegistry.Workspace
