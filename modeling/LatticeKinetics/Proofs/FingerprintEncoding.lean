import LatticeKinetics.Model.Fingerprint
import LatticeKinetics.Proofs.SiteTypes
import LatticeKinetics.Proofs.SourceTokens
import LatticeKinetics.Samples
import LatticeKinetics.Text.Number
import Mathlib.Data.Option.Basic

/-! The bytes of which a fingerprint is made tell the model apart from every other with as many
layers. Texts carry their lengths, but species, conversions and processes are not counted: the list
of species ends at the first text that was there before, and conversions end at the first text that
names no layer. -/

namespace LatticeKinetics

namespace Fingerprint

open Text

variable {α β : Type}

/-! ### Encodings that end by themselves -/

/-- On the values of interest, an encoding can be told from the bytes that follow it. -/
def Separates (P : α → Prop) (f : α → List UInt8) : Prop :=
  ∀ a b r r', P a → P b → f a ++ r = f b ++ r' → a = b ∧ r = r'

theorem Separates.append {P : α → Prop} {Q : β → Prop} {f : α → List UInt8}
    {g : β → List UInt8} (hf : Separates P f) (hg : Separates Q g) :
    Separates (fun p : α × β => P p.1 ∧ Q p.2) fun p => f p.1 ++ g p.2 := by
  intro p q r r' hp hq h
  rw [List.append_assoc, List.append_assoc] at h
  obtain ⟨hfst, h⟩ := hf _ _ _ _ hp.1 hq.1 h
  obtain ⟨hsnd, h⟩ := hg _ _ _ _ hp.2 hq.2 h
  exact ⟨Prod.ext hfst hsnd, h⟩

theorem Separates.flatMap {P : α → Prop} {f : α → List UInt8} (hf : Separates P f)
    {as bs : List α} {r r' : List UInt8} (hlength : as.length = bs.length)
    (ha : ∀ a ∈ as, P a) (hb : ∀ b ∈ bs, P b) (h : as.flatMap f ++ r = bs.flatMap f ++ r') :
    as = bs ∧ r = r' := by
  induction as generalizing bs with
  | nil =>
    obtain rfl := List.length_eq_zero_iff.1 hlength.symm
    exact ⟨rfl, h⟩
  | cons a as ih =>
    obtain ⟨b, bs, rfl⟩ := List.exists_cons_of_length_eq_add_one hlength.symm
    rw [List.flatMap_cons, List.flatMap_cons, List.append_assoc, List.append_assoc] at h
    have ha := List.forall_mem_cons.1 ha
    have hb := List.forall_mem_cons.1 hb
    obtain ⟨rfl, htail⟩ := hf _ _ _ _ ha.1 hb.1 h
    obtain ⟨rfl, hrest⟩ := ih (Nat.succ.inj hlength) ha.2 hb.2 htail
    exact ⟨rfl, hrest⟩

/-- Where nothing follows, lists need not be counted. -/
theorem Separates.flatMap_inj {P : α → Prop} {f : α → List UInt8} (hf : Separates P f)
    (hne : ∀ a, f a ≠ []) {as bs : List α} (ha : ∀ a ∈ as, P a) (hb : ∀ b ∈ bs, P b)
    (h : as.flatMap f = bs.flatMap f) : as = bs := by
  induction as generalizing bs with
  | nil =>
    cases bs with
    | nil => rfl
    | cons b bs => simp [hne] at h
  | cons a as ih =>
    cases bs with
    | nil => simp [hne] at h
    | cons b bs =>
      have ha := List.forall_mem_cons.1 ha
      have hb := List.forall_mem_cons.1 hb
      obtain ⟨rfl, htail⟩ := hf _ _ _ _ ha.1 hb.1 h
      rw [ih ha.2 hb.2 htail]

/-! ### Words and texts -/

theorem word_inj {a b : Int} (h : word a = word b) : a % 4294967296 = b % 4294967296 := by
  have hbyte (x y : Nat) (hxy : UInt8.ofNat x = UInt8.ofNat y) : x % 256 = y % 256 := by
    simpa using congrArg UInt8.toNat hxy
  simp only [word, List.map_cons, List.map_nil, List.cons.injEq, and_true] at h
  obtain ⟨h₀, h₁, h₂, h₃⟩ := h
  have := hbyte _ _ h₀
  have := hbyte _ _ h₁
  have := hbyte _ _ h₂
  have := hbyte _ _ h₃
  omega

theorem separates_word {P : Int → Prop}
    (hP : ∀ a b, P a → P b → a % 4294967296 = b % 4294967296 → a = b) : Separates P word := by
  intro a b r r' ha hb h
  obtain ⟨hword, hrest⟩ := List.append_inj h rfl
  exact ⟨hP a b ha hb (word_inj hword), hrest⟩

def IsCount (n : Int) : Prop :=
  0 ≤ n ∧ n < 4294967296

instance (n : Int) : Decidable (IsCount n) :=
  inferInstanceAs (Decidable (_ ∧ _))

theorem separates_count : Separates IsCount word :=
  separates_word fun a b ha hb h => by unfold IsCount at ha hb; omega

theorem separates_shift : Separates (fitsWord32 · = true) word :=
  separates_word fun a b ha hb h => by simp [fitsWord32] at ha hb; omega

theorem encode_inj {s t : String} (h : encode s = encode t) : s = t := by
  rw [← String.toByteArray_inj, ← String.utf8Encode_toList, ← String.utf8Encode_toList]
  exact congrArg List.toByteArray h

def Short (s : String) : Prop :=
  IsCount (encode s).length

instance (s : String) : Decidable (Short s) :=
  inferInstanceAs (Decidable (IsCount _))

theorem separates_text : Separates Short text := by
  intro s t r r' hs ht h
  unfold text at h
  rw [List.append_assoc, List.append_assoc] at h
  obtain ⟨hlength, h⟩ := separates_count _ _ _ _ hs ht h
  obtain ⟨hencode, h⟩ := List.append_inj h (Int.ofNat.inj hlength)
  exact ⟨encode_inj hencode, h⟩

theorem text_ne_nil (s : String) : text s ≠ [] := by
  simp [text, word]

theorem Separates.counted {P : α → Prop} {f : α → List UInt8} (hf : Separates P f) :
    Separates (fun as : List α => IsCount as.length ∧ ∀ a ∈ as, P a)
      fun as => word as.length ++ as.flatMap f := by
  intro as bs r r' has hbs h
  rw [List.append_assoc, List.append_assoc] at h
  obtain ⟨hlength, h⟩ := separates_count _ _ _ _ has.1 hbs.1 h
  exact hf.flatMap (Int.ofNat.inj hlength) has.2 hbs.2 h

/-! ### Coordinates -/

theorem append_cons_inj {c : α} {xs ys as bs : List α} (hx : c ∉ xs) (hy : c ∉ ys)
    (h : xs ++ c :: as = ys ++ c :: bs) : xs = ys ∧ as = bs := by
  induction xs generalizing ys with
  | nil =>
    cases ys with
    | nil => exact ⟨rfl, (List.cons.inj h).2⟩
    | cons y ys => exact absurd (List.cons.inj h).1 (List.ne_of_not_mem_cons hy)
  | cons x xs ih =>
    cases ys with
    | nil => exact absurd (List.cons.inj h).1.symm (List.ne_of_not_mem_cons hx)
    | cons y ys =>
      obtain ⟨hxy, htail⟩ := List.cons.inj h
      obtain ⟨hxs, hrest⟩ := ih (List.not_mem_of_not_mem_cons hx) (List.not_mem_of_not_mem_cons hy)
        htail
      exact ⟨by rw [hxy, hxs], hrest⟩

theorem mem_toString {n : Int} {c : Char} (h : c ∈ (toString n).toList) :
    c = '-' ∨ isNumeral c = true := by
  cases n with
  | ofNat n =>
    have hdigits : c ∈ Nat.toDigits 10 n := Fortran.toList_toString n ▸ h
    exact .inr (Fortran.isNumeral_of_mem_toDigits hdigits)
  | negSucc n =>
    rw [Fortran.toList_toString_negSucc] at h
    exact (List.mem_cons.1 h).imp_right Fortran.isNumeral_of_mem_toDigits

theorem toList_render (c : Coordinate) : c.render.toList =
    c.site.toList ++ '.' :: '(' :: ((toString (c.axis 0)).toList ++ ',' :: ' ' ::
      ((toString (c.axis 1)).toList ++ ',' :: ' ' ::
        ((toString (c.axis 2)).toList ++ ')' :: '.' :: c.layer.toList))) := by
  have hparts : c.render = c.site ++ ".(" ++ toString (c.axis 0) ++ ", " ++ toString (c.axis 1) ++
      ", " ++ toString (c.axis 2) ++ ")." ++ c.layer := rfl
  rw [hparts]
  simp only [String.toList_append, List.append_assoc]
  rfl

structure Legible (dimension : Nat) (c : Coordinate) : Prop where
  offset : c.offset.length = dimension
  site : '.' ∉ c.site.toList

theorem offset_inj {c d : Coordinate} (hlength : c.offset.length = d.offset.length)
    (hle : c.offset.length ≤ 3) (h₀ : c.axis 0 = d.axis 0) (h₁ : c.axis 1 = d.axis 1)
    (h₂ : c.axis 2 = d.axis 2) : c.offset = d.offset := by
  apply List.ext_getElem hlength
  intro i hi hi'
  have haxis : c.axis i = d.axis i := by
    have : i = 0 ∨ i = 1 ∨ i = 2 := by omega
    rcases this with rfl | rfl | rfl <;> assumption
  simpa [Coordinate.axis, hi, hi'] using haxis

theorem toDigits_inj {a b : Nat} (h : Nat.toDigits 10 a = Nat.toDigits 10 b) : a = b := by
  have hvalue := congrArg (Nat.ofDigitChars 10 · 0) h
  simpa only [Nat.ofDigitChars_ten_toDigits] using hvalue

theorem minus_not_mem_toDigits (n : Nat) : '-' ∉ Nat.toDigits 10 n := fun h =>
  absurd (Fortran.isNumeral_of_mem_toDigits h) (by decide)

theorem toString_int_inj {a b : Int} (h : (toString a).toList = (toString b).toList) : a = b := by
  have hnat (n : Nat) : (toString (Int.ofNat n)).toList = Nat.toDigits 10 n :=
    Fortran.toList_toString n
  cases a with
  | ofNat a =>
    cases b with
    | ofNat b =>
      rw [hnat, hnat] at h
      rw [toDigits_inj h]
    | negSucc b =>
      rw [hnat, Fortran.toList_toString_negSucc] at h
      exact absurd (h ▸ List.mem_cons_self) (minus_not_mem_toDigits a)
  | negSucc a =>
    cases b with
    | ofNat b =>
      rw [hnat, Fortran.toList_toString_negSucc] at h
      exact absurd (h ▸ List.mem_cons_self) (minus_not_mem_toDigits b)
    | negSucc b =>
      rw [Fortran.toList_toString_negSucc, Fortran.toList_toString_negSucc] at h
      rw [Nat.succ.inj (toDigits_inj (List.cons.inj h).2)]

theorem render_inj {dimension : Nat} (hle : dimension ≤ 3) {c d : Coordinate}
    (hc : Legible dimension c) (hd : Legible dimension d) (h : c.render = d.render) : c = d := by
  have hnumber (n : Int) (k : Char) (hk : (k == '-' || isNumeral k) = false) :
      k ∉ (toString n).toList := by
    intro hmem
    rcases mem_toString hmem with rfl | hnumeral
    · exact absurd hk (by decide)
    · simp [hnumeral] at hk
  have htext := congrArg String.toList h
  rw [toList_render, toList_render] at htext
  obtain ⟨hsite, htext⟩ := append_cons_inj hc.site hd.site htext
  obtain ⟨h₀, htext⟩ := append_cons_inj (hnumber _ _ (by decide)) (hnumber _ _ (by decide))
    (List.cons.inj htext).2
  obtain ⟨h₁, htext⟩ := append_cons_inj (hnumber _ _ (by decide)) (hnumber _ _ (by decide))
    (List.cons.inj htext).2
  obtain ⟨h₂, htext⟩ := append_cons_inj (hnumber _ _ (by decide)) (hnumber _ _ (by decide))
    (List.cons.inj htext).2
  have hoffset := offset_inj (hc.offset.trans hd.offset.symm) (hc.offset ▸ hle)
    (toString_int_inj h₀) (toString_int_inj h₁) (toString_int_inj h₂)
  cases c
  cases d
  rw [Coordinate.mk.injEq]
  exact ⟨hoffset, String.toList_inj.1 hsite, String.toList_inj.1 (List.cons.inj htext).2⟩

/-! ### Sections of a model -/

/-- The first text that was there before is the default species, and there the names of the species
end. -/
theorem species_inj (seen : List String) {xs ys : List String} {x y : String} {r r' : List UInt8}
    (hxs : (seen ++ xs).Nodup) (hys : (seen ++ ys).Nodup) (hx : x ∈ seen ++ xs)
    (hy : y ∈ seen ++ ys) (hsx : ∀ s ∈ seen ++ xs, Short s) (hsy : ∀ s ∈ seen ++ ys, Short s)
    (h : xs.flatMap text ++ (text x ++ r) = ys.flatMap text ++ (text y ++ r')) :
    xs = ys ∧ x = y ∧ r = r' := by
  induction xs generalizing seen ys with
  | nil =>
    cases ys with
    | nil => exact ⟨rfl, separates_text _ _ _ _ (hsx x hx) (hsy y hy) h⟩
    | cons z ys =>
      rw [List.flatMap_cons, List.append_assoc] at h
      obtain ⟨rfl, -⟩ := separates_text _ _ _ _ (hsx x hx) (hsy z (by simp)) h
      exact absurd rfl ((List.nodup_append.1 hys).2.2 x (by simpa using hx) x (by simp))
  | cons z xs ih =>
    rw [List.flatMap_cons, List.append_assoc] at h
    cases ys with
    | nil =>
      obtain ⟨rfl, -⟩ := separates_text _ _ _ _ (hsx z (by simp)) (hsy y hy) h
      exact absurd rfl ((List.nodup_append.1 hxs).2.2 z (by simpa using hy) z (by simp))
    | cons z' ys =>
      rw [List.flatMap_cons, List.append_assoc] at h
      obtain ⟨rfl, htail⟩ := separates_text _ _ _ _ (hsx z (by simp)) (hsy z' (by simp)) h
      rw [List.append_cons] at hxs hys hx hy hsx hsy
      obtain ⟨rfl, hrest⟩ := ih _ hxs hys hx hy hsx hsy htail
      exact ⟨rfl, hrest⟩

theorem separates_placement {dimension : Nat} (hle : dimension ≤ 3) :
    Separates (fun p : Placement => Legible dimension p.coord ∧ Short p.coord.render ∧
      Short p.species) placement := by
  intro p q r r' hp hq h
  unfold placement at h
  rw [List.append_assoc, List.append_assoc] at h
  obtain ⟨hcoord, htail⟩ := separates_text _ _ _ _ hp.2.1 hq.2.1 h
  obtain ⟨hspecies, hrest⟩ := separates_text _ _ _ _ hp.2.2 hq.2.2 htail
  cases p
  cases q
  rw [Placement.mk.injEq]
  exact ⟨⟨render_inj hle hp.1 hq.1 hcoord, hspecies⟩, hrest⟩

def layerBytes (l : String × List String) : List UInt8 :=
  text l.1 ++ (word l.2.length ++ l.2.flatMap text)

theorem layer_eq (l : Layer) : layer l = layerBytes (l.name, l.siteNames) := by
  simp [layer, layerBytes, Layer.siteNames]

theorem separates_layer : Separates (fun l : String × List String => Short l.1 ∧
    IsCount l.2.length ∧ ∀ name ∈ l.2, Short name) layerBytes :=
  separates_text.append separates_text.counted

theorem separates_conversion (dimension : Nat) :
    Separates (fun c : Conversion => Short c.source ∧ Short c.target ∧
      c.shift.length = dimension ∧ ∀ x ∈ c.shift, fitsWord32 x = true) conversion := by
  intro c e r r' hc he h
  unfold conversion at h
  simp only [List.append_assoc] at h
  obtain ⟨hsource, h₁⟩ := separates_text _ _ _ _ hc.1 he.1 h
  obtain ⟨htarget, h₂⟩ := separates_text _ _ _ _ hc.2.1 he.2.1 h₁
  obtain ⟨hshift, hrest⟩ := separates_shift.flatMap (hc.2.2.1.trans he.2.2.1.symm) hc.2.2.2
    he.2.2.2 h₂
  cases c
  cases e
  rw [Conversion.mk.injEq]
  exact ⟨⟨hsource, htarget, hshift⟩, hrest⟩

end Fingerprint

open Text Fingerprint

@[mk_iff]
structure Process.Countable (p : Process) : Prop where
  name : Short p.name
  rateConstant : Short p.rateConstant
  conditions : IsCount p.conditions.length
  actions : IsCount p.actions.length
  placements : ∀ q ∈ p.conditions ++ p.actions, Short q.coord.render ∧ Short q.species

instance (p : Process) : Decidable p.Countable :=
  decidable_of_iff _ (Process.countable_iff p).symm

@[mk_iff]
structure Layer.Countable (l : Layer) : Prop where
  name : Short l.name
  sites : IsCount l.siteNames.length
  siteNames : ∀ name ∈ l.siteNames, Short name

instance (l : Layer) : Decidable l.Countable :=
  decidable_of_iff _ (Layer.countable_iff l).symm

/-- The bytes of the fingerprint have room for every length and every shift of the model. -/
@[mk_iff]
structure Model.Countable (m : Model) : Prop where
  species : ∀ name ∈ m.species, Short name
  layers : ∀ l ∈ m.layers, l.Countable
  shifts : ∀ c ∈ m.conversions.entries, ∀ x ∈ c.shift, fitsWord32 x = true
  processes : ∀ p ∈ m.processes, p.Countable

instance (m : Model) : Decidable m.Countable :=
  decidable_of_iff _ (Model.countable_iff m).symm

namespace Fingerprint

theorem separates_process {dimension : Nat} (hle : dimension ≤ 3) :
    Separates (fun p : Process => p.Countable ∧
      ∀ q ∈ p.conditions ++ p.actions, Legible dimension q.coord) process := by
  intro p q r r' hp hq h
  simp only [process, List.append_assoc] at h
  have hlists : Separates _ placements := (separates_placement hle).counted
  have hfits {p : Process} (hp : p.Countable ∧
      ∀ q ∈ p.conditions ++ p.actions, Legible dimension q.coord) (q : Placement)
      (hq : q ∈ p.conditions ++ p.actions) :
      Legible dimension q.coord ∧ Short q.coord.render ∧ Short q.species :=
    ⟨hp.2 q hq, hp.1.placements q hq⟩
  obtain ⟨hname, h₁⟩ := separates_text _ _ _ _ hp.1.name hq.1.name h
  obtain ⟨hrate, h₂⟩ := separates_text _ _ _ _ hp.1.rateConstant hq.1.rateConstant h₁
  obtain ⟨hconditions, h₃⟩ := hlists _ _ _ _
    ⟨hp.1.conditions, fun c hc => hfits hp c (List.mem_append_left _ hc)⟩
    ⟨hq.1.conditions, fun c hc => hfits hq c (List.mem_append_left _ hc)⟩ h₂
  obtain ⟨hactions, hrest⟩ := hlists _ _ _ _
    ⟨hp.1.actions, fun a ha => hfits hp a (List.mem_append_right _ ha)⟩
    ⟨hq.1.actions, fun a ha => hfits hq a (List.mem_append_right _ ha)⟩ h₃
  cases p
  cases q
  rw [Process.mk.injEq]
  exact ⟨⟨hname, hrate, hconditions, hactions⟩, hrest⟩

theorem process_ne_nil (p : Process) : process p ≠ [] := by
  simp [process, text_ne_nil]

/-- A conversion opens with the name of a layer, a process never does. -/
theorem conversion_ne_processes {layers : List String} {c : Conversion} {ps : List Process}
    {r : List UInt8} (hsource : c.source ∈ layers) (hshort : Short c.source)
    (hps : ∀ p ∈ ps, Short p.name ∧ p.name ∉ layers) :
    conversion c ++ r ≠ ps.flatMap process := by
  intro h
  cases ps with
  | nil => simp [conversion, text_ne_nil] at h
  | cons p ps =>
    have hp := hps p List.mem_cons_self
    simp only [List.flatMap_cons, conversion, process, List.append_assoc] at h
    obtain ⟨hname, -⟩ := separates_text _ _ _ _ hshort hp.1 h
    exact hp.2 (hname ▸ hsource)

theorem conversions_inj {P : Conversion → Prop} (hP : Separates P conversion)
    {layers : List String} {cs es : List Conversion} {ps qs : List Process}
    (hcs : ∀ c ∈ cs, (Short c.source ∧ c.source ∈ layers) ∧ P c)
    (hes : ∀ e ∈ es, (Short e.source ∧ e.source ∈ layers) ∧ P e)
    (hps : ∀ p ∈ ps, Short p.name ∧ p.name ∉ layers)
    (hqs : ∀ q ∈ qs, Short q.name ∧ q.name ∉ layers)
    (h : cs.flatMap conversion ++ ps.flatMap process =
      es.flatMap conversion ++ qs.flatMap process) :
    cs = es ∧ ps.flatMap process = qs.flatMap process := by
  induction cs generalizing es with
  | nil =>
    cases es with
    | nil => exact ⟨rfl, h⟩
    | cons e es =>
      have he := (hes e List.mem_cons_self).1
      rw [List.flatMap_cons, List.append_assoc] at h
      exact absurd h.symm (conversion_ne_processes he.2 he.1 hps)
  | cons c cs ih =>
    have hc := List.forall_mem_cons.1 hcs
    rw [List.flatMap_cons, List.append_assoc] at h
    cases es with
    | nil => exact absurd h (conversion_ne_processes hc.1.1.2 hc.1.1.1 hqs)
    | cons e es =>
      have he := List.forall_mem_cons.1 hes
      rw [List.flatMap_cons, List.append_assoc] at h
      obtain ⟨rfl, htail⟩ := hP _ _ _ _ hc.1.2 he.1.2 h
      obtain ⟨rfl, hprocesses⟩ := ih hc.2 he.2 htail
      exact ⟨rfl, hprocesses⟩

end Fingerprint

namespace Model

variable {m m' : Model}

theorem fingerprintBytes_eq (m : Model) : m.fingerprintBytes =
    word m.dimension ++ (m.species.flatMap text ++ (text m.defaultSpecies ++
      ((m.layers.map fun l => (l.name, l.siteNames)).flatMap layerBytes ++
        (m.conversions.entries.flatMap conversion ++ m.processes.flatMap process)))) := by
  unfold fingerprintBytes
  rw [List.flatMap_map]
  simp only [List.append_assoc, ← layer_eq]

theorem Rules.dot_not_mem_site (h : m.Rules) {coord : Coordinate} (hcoord : m.HasSiteType coord) :
    '.' ∉ coord.site.toList := by
  obtain ⟨l, hl, hsite⟩ := hcoord
  -- Alone a site's name is not checked; as part of its site type's name it is.
  have hname : siteConstant l.name coord.site ∈ m.names := by
    have hsite : coord.site ∈ l.siteNames := by simpa [Layer.hasSite, Layer.siteNames] using hsite
    have hlayer : siteConstant l.name coord.site ∈ layerNames l :=
      List.mem_cons_of_mem _ (List.mem_map_of_mem hsite)
    unfold Model.names
    simp only [List.mem_append, List.mem_flatMap]
    exact .inl (.inr ⟨l, List.mem_of_find?_eq_some hl, hlayer⟩)
  obtain ⟨c, cs, htext, hc, hcs⟩ :=
    Fortran.exists_of_isIdentifier (h.names.identifiers _ hname)
  intro hdot
  have hmem : '.' ∈ (siteConstant l.name coord.site).toList := by
    rw [show siteConstant l.name coord.site = l.name ++ "_" ++ coord.site from rfl,
      String.toList_append]
    exact List.mem_append_right _ hdot
  rw [htext] at hmem
  rcases List.mem_cons.1 hmem with rfl | hmem
  · exact absurd hc (by decide)
  · exact absurd (List.all_eq_true.1 hcs _ hmem) (by decide)

theorem Rules.legible (h : m.Rules) {p : Placement} (hp : m.Declares p) :
    Legible m.dimension p.coord :=
  ⟨hp.offset, h.dot_not_mem_site hp.siteType⟩

theorem Rules.process_not_layer (h : m.Rules) {p : Process} (hp : p ∈ m.processes) :
    p.name ∉ m.layers.map (·.name) := by
  have hnames := h.names_nodup
  unfold Model.names at hnames
  intro hmem
  exact (List.nodup_append.1 hnames).2.2 p.name
    (List.mem_append_right _ ((map_name_sublist m.layers).subset hmem)) p.name
    (List.mem_map_of_mem hp) rfl

theorem Rules.mem_layers_of_conversion (h : m.Rules) {c : Conversion}
    (hc : c ∈ m.conversions.entries) :
    (∃ l ∈ m.layers, l.name = c.source) ∧ ∃ l ∈ m.layers, l.name = c.target := by
  have hrules := h.conversions c hc
  have hsource := List.find?_isSome.1 hrules.source
  have htarget := List.find?_isSome.1 hrules.target
  exact ⟨by simpa using hsource, by simpa using htarget⟩

theorem Countable.source (hm : m.Countable) (h : m.Rules) {c : Conversion}
    (hc : c ∈ m.conversions.entries) :
    Short c.source ∧ c.source ∈ (m.layers.map fun l => (l.name, l.siteNames)).map (·.1) := by
  obtain ⟨⟨l, hl, hname⟩, -⟩ := h.mem_layers_of_conversion hc
  refine ⟨hname ▸ (hm.layers l hl).name, ?_⟩
  rw [List.map_map]
  exact List.mem_map.2 ⟨l, hl, hname⟩

theorem Countable.conversion (hm : m.Countable) (h : m.Rules) {c : Conversion}
    (hc : c ∈ m.conversions.entries) : Short c.source ∧ Short c.target ∧
      c.shift.length = m.dimension ∧ ∀ x ∈ c.shift, fitsWord32 x = true := by
  obtain ⟨⟨l, hl, hsource⟩, k, hk, htarget⟩ := h.mem_layers_of_conversion hc
  exact ⟨hsource ▸ (hm.layers l hl).name, htarget ▸ (hm.layers k hk).name,
    (h.conversions c hc).shift, hm.shifts c hc⟩

theorem Countable.process (hm : m.Countable) (h : m.Rules) {p : Process} (hp : p ∈ m.processes) :
    p.Countable ∧ ∀ q ∈ p.conditions ++ p.actions, Legible m.dimension q.coord := by
  refine ⟨hm.processes p hp, ?_⟩
  intro q hq
  have hprocess := h.processes p hp
  rcases List.mem_append.1 hq with hq | hq
  · exact h.legible (hprocess.conditions q hq)
  · exact h.legible (hprocess.actions q hq).1

theorem Countable.processName (hm : m.Countable) (h : m.Rules) {p : Process}
    (hp : p ∈ m.processes) :
    Short p.name ∧ p.name ∉ (m.layers.map fun l => (l.name, l.siteNames)).map (·.1) := by
  rw [List.map_map]
  exact ⟨(hm.processes p hp).name, h.process_not_layer hp⟩

theorem Countable.layer (hm : m.Countable) {l : String × List String}
    (hl : l ∈ m.layers.map fun l => (l.name, l.siteNames)) :
    Short l.1 ∧ IsCount l.2.length ∧ ∀ name ∈ l.2, Short name := by
  obtain ⟨k, hk, rfl⟩ := List.mem_map.1 hl
  have hlayer := hm.layers k hk
  exact ⟨hlayer.name, hlayer.sites, hlayer.siteNames⟩

theorem Rules.isCount_dimension (h : m.Rules) : IsCount m.dimension := by
  have hdimension := h.dimension
  unfold IsCount
  omega

end Model

/-- Two valid models with as many layers are made of the same bytes exactly when they agree in all
that the fingerprint is about; the fingerprint is the 64-bit FNV-1a hash of these bytes. -/
theorem fingerprint_bytes_determine_model {d d' : Draft} {m m' : Model} (hd : d.build = .ok m)
    (hd' : d'.build = .ok m') (hlayers : m.layers.length = m'.layers.length)
    (hm : m.Countable) (hm' : m'.Countable) :
    m.fingerprint = m.fingerprintBytes.foldl
      (fun hash byte => (hash ^^^ byte.toUInt64) * 0x00000100000001b3) 0xcbf29ce484222325 ∧
    (m.fingerprintBytes = m'.fingerprintBytes ↔
      m.dimension = m'.dimension ∧ m.species = m'.species ∧
      m.defaultSpecies = m'.defaultSpecies ∧
      (m.layers.map fun l => (l.name, l.siteNames)) =
        (m'.layers.map fun l => (l.name, l.siteNames)) ∧
      m.conversions.entries = m'.conversions.entries ∧ m.processes = m'.processes) := by
  obtain ⟨hrules, hdefault⟩ := Draft.build_eq_ok hd
  obtain ⟨hrules', hdefault'⟩ := Draft.build_eq_ok hd'
  refine ⟨rfl, ?_⟩
  rw [m.fingerprintBytes_eq, m'.fingerprintBytes_eq]
  constructor
  · intro h
    obtain ⟨hdimension, h₁⟩ := separates_count _ _ _ _ hrules.isCount_dimension
      hrules'.isCount_dimension h
    replace hdimension : m.dimension = m'.dimension := Int.ofNat.inj hdimension
    obtain ⟨hspecies, hdefault, h₂⟩ := species_inj [] hrules.species_nodup
      hrules'.species_nodup hdefault hdefault' hm.species hm'.species h₁
    obtain ⟨hshapes, h₃⟩ := separates_layer.flatMap (by simpa using hlayers)
      (fun _ hl => hm.layer hl) (fun _ hl => hm'.layer hl) h₂
    have hconversion (c : Conversion) (hc : c ∈ m'.conversions.entries) :=
      hm'.conversion hrules' hc
    have hprocess (p : Process) (hp : p ∈ m'.processes) := hm'.process hrules' hp
    rw [← hdimension] at hconversion hprocess
    have hsource (c : Conversion) (hc : c ∈ m'.conversions.entries) := hm'.source hrules' hc
    have hname (p : Process) (hp : p ∈ m'.processes) := hm'.processName hrules' hp
    rw [← hshapes] at hsource hname
    obtain ⟨hconversions, h₄⟩ := conversions_inj (separates_conversion m.dimension)
      (fun c hc => ⟨hm.source hrules hc, hm.conversion hrules hc⟩)
      (fun c hc => ⟨hsource c hc, hconversion c hc⟩)
      (fun p hp => hm.processName hrules hp) hname h₃
    have hprocesses := (separates_process hrules.dimension.2).flatMap_inj process_ne_nil
      (fun p hp => hm.process hrules hp) hprocess h₄
    exact ⟨hdimension, hspecies, hdefault, hshapes, hconversions, hprocesses⟩
  · rintro ⟨hdimension, hspecies, hdefault, hlayers, hconversions, hprocesses⟩
    rw [hdimension, hspecies, hdefault, hlayers, hconversions, hprocesses]

def Draft.resized (d : Draft) (size : Triple Float) : Draft :=
  { d with layers := d.layers.map fun l => { l with cellSize := size } }

/-- Two layers, with a shift between them, whose cells are stretched. -/
theorem stretched_chain_has_same_bytes :
    ∃ m m', Samples.twoLayerChain.build = .ok m ∧
      (Samples.twoLayerChain.resized ⟨2, 3, 5⟩).build = .ok m' ∧
      m.fingerprintBytes = m'.fingerprintBytes ∧
      m.conversions.entries = m'.conversions.entries ∧ m.processes = m'.processes := by
  have h : (do
      let m ← Samples.twoLayerChain.build.toOption
      let m' ← (Samples.twoLayerChain.resized ⟨2, 3, 5⟩).build.toOption
      guard (m.layers.length = m'.layers.length ∧ m.Countable ∧ m'.Countable ∧
        m.fingerprintBytes = m'.fingerprintBytes)) = some () := by
    decide +kernel
  simp only [Option.bind_eq_bind, Option.bind_eq_some_iff, toOption_eq_some_iff,
    Option.guard_eq_some'] at h
  obtain ⟨m, hm, m', hm', hlayers, hcount, hcount', hbytes⟩ := h
  obtain ⟨-, hiff⟩ := fingerprint_bytes_determine_model hm hm' hlayers hcount hcount'
  obtain ⟨-, -, -, -, hconversions, hprocesses⟩ := hiff.1 hbytes
  exact ⟨m, m', hm, hm', hbytes, hconversions, hprocesses⟩

end LatticeKinetics
