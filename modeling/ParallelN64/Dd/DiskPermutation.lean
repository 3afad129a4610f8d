import ParallelN64.Dd.DiskBlocks

/-!
# The conversion is a permutation of blocks

Every zone goes to a part of the image of its own, and comes from a part of the dump of its own if
its list of bad tracks is used up. Of the other lists only the one of the zone that is last in the
dump can lead out of it.
-/

namespace ParallelN64.Dd.Convert

section Heads

variable (dump : Dump) (zone : Nat)

def badTracks : List Nat := (List.range 0xC).map (badTrack dump zone)

def placeOf (track : Nat) : Nat := outStart zone + track * trackSize zone

def order : List Nat :=
  if zone < 8 then List.range (tracks zone) else (List.range (tracks zone)).reverse

def badOrder : List Nat :=
  if zone < 8 then badTracks dump zone else (badTracks dump zone).reverse

theorem length_badTracks : (badTracks dump zone).length = 0xC := by
  simp [badTracks]

variable {dump zone}

theorem trackSize_eq : trackSize zone = blockSize zone + blockSize zone := Nat.mul_two _

theorem placeOf_succ (track : Nat) :
    placeOf zone track + blockSize zone + blockSize zone = placeOf zone (track + 1) := by
  rw [placeOf, placeOf, Nat.succ_mul, trackSize_eq]
  omega

theorem head?_drop_badTracks {k track : Nat} : ((badTracks dump zone).drop k).head? = some track ↔
    k < 0xC ∧ track = badTrack dump zone k := by
  rw [List.head?_drop, badTracks, List.getElem?_map]
  by_cases hk : k < 0xC
  · rw [List.getElem?_range hk]
    simp [hk, eq_comm]
  · rw [List.getElem?_eq_none (by simpa using hk)]
    simp [hk]

theorem copyHead0_eq (a count k cur block : Nat) :
    copyHead0 dump zone (List.range' a count) k cur block (placeOf zone a) =
      walk (blockSize zone) (placeOf zone) (List.range' a count) ((badTracks dump zone).drop k)
        cur block := by
  induction count generalizing a k cur block with
  | zero => rfl
  | succ count ih =>
    rw [List.range'_succ, copyHead0, walk]
    simp only [head?_drop_badTracks, placeOf_succ, ih, List.tail_drop]

theorem copyHead1_eq (l : List Nat) (k cur block : Nat) (hk : k ≤ 0xC) :
    copyHead1 dump zone l ((k : Int) - 1) cur block =
      walk (blockSize zone) (placeOf zone) (l.map (tracks zone - ·))
        ((badTracks dump zone).take k).reverse cur block := by
  induction l generalizing k cur block with
  | nil => rfl
  | cons track l ih =>
    rw [List.map_cons, copyHead1, walk]
    cases k with
    | zero =>
      have hnone : ¬ (((0 : Nat) : Int) - 1 > -1 ∧ tracks zone - track =
          badTrack dump zone (((0 : Nat) : Int) - 1).toNat) := by
        omega
      have hempty : ¬ ((badTracks dump zone).take 0).reverse.head? =
          some (tracks zone - track) := by
        simp
      rw [if_neg hnone, if_neg hempty]
      simp only [ih 0 _ _ (Nat.zero_le _), placeOf]
    | succ k =>
      have htake : ((badTracks dump zone).take (k + 1)).reverse =
          badTrack dump zone k :: ((badTracks dump zone).take k).reverse := by
        have hget : (badTracks dump zone)[k]? = some (badTrack dump zone k) := by
          rw [badTracks, List.getElem?_map, List.getElem?_range hk]
          rfl
        rw [List.take_add_one, hget, Option.toList_some, List.reverse_append]
        rfl
      have hlast : ((k + 1 : Nat) : Int) - 1 = k := by omega
      have hcond : ((k : Int) > -1 ∧ tracks zone - track = badTrack dump zone (k : Int).toNat) ↔
          some (badTrack dump zone k) = some (tracks zone - track) := by
        rw [Int.toNat_natCast, Option.some.injEq]
        constructor
        · exact fun h => h.2.symm
        · exact fun h => ⟨by omega, h.symm⟩
      rw [htake, List.head?_cons, List.tail_cons, hlast]
      simp only [hcond, ih k _ _ (Nat.le_of_succ_le hk)]
      rw [← htake, ← hlast]
      simp only [ih (k + 1) _ _ hk, placeOf]

theorem copyZone_eq (types rev start : List Nat) : copyZone dump types rev start zone =
    walk (blockSize zone) (placeOf zone) (order zone) (badOrder dump zone)
      (inStart types (rev.getD zone 0)) (start.getD zone 0) := by
  unfold copyZone order badOrder
  split
  · have hplace : placeOf zone 0 = outStart zone := by simp [placeOf]
    rw [List.range_eq_range', ← hplace, copyHead0_eq, List.drop_zero]
  · have horder : (List.range' 1 (tracks zone)).map (tracks zone - ·) =
        (List.range (tracks zone)).reverse := by
      apply List.ext_getElem
      · simp
      · intro k h₁ h₂
        simp only [List.getElem_map, List.getElem_range', List.getElem_reverse,
          List.getElem_range, List.length_range]
        omega
    have hall : (badTracks dump zone).take 0xC = badTracks dump zone := by
      rw [← length_badTracks dump zone, List.take_length]
    have hcopy := @copyHead1_eq dump zone (List.range' 1 (tracks zone)) 0xC
      (inStart types (rev.getD zone 0)) (start.getD zone 0) le_rfl
    rw [horder, hall] at hcopy
    exact hcopy

end Heads

section Lists

variable {dump : Dump} {zone : Nat}

/-- The list of a zone is strictly increasing and within the zone. -/
structure GoodList (dump : Dump) (zone : Nat) : Prop where
  increasing : (badTracks dump zone).Pairwise (· < ·)
  within : ∀ track ∈ badTracks dump zone, track < tracks zone

theorem goodList_iff : GoodList dump zone ↔ (badOrder dump zone).Sublist (order zone) := by
  have hsub : (badOrder dump zone).Sublist (order zone) ↔
      (badTracks dump zone).Sublist (List.range (tracks zone)) := by
    unfold badOrder order
    split
    · exact Iff.rfl
    · exact List.reverse_sublist
  rw [hsub]
  constructor
  · rintro ⟨hincreasing, hwithin⟩
    have hnodup : (badTracks dump zone).Nodup := hincreasing.imp fun h => h.ne
    have hsubset : badTracks dump zone ⊆ List.range (tracks zone) :=
      fun track htrack => List.mem_range.mpr (hwithin track htrack)
    exact List.sublist_of_subperm_of_pairwise (List.subperm_of_subset hnodup hsubset) hincreasing
      List.pairwise_lt_range
  · intro h
    exact ⟨List.pairwise_lt_range.sublist h, fun track htrack =>
      List.mem_range.mp (h.subset htrack)⟩

theorem order_nodup : (order zone).Nodup := by
  unfold order
  split
  · exact List.nodup_range
  · exact List.nodup_reverse.mpr List.nodup_range

theorem mem_order {track : Nat} : track ∈ order zone ↔ track < tracks zone := by
  unfold order
  split
  · exact List.mem_range
  · rw [List.mem_reverse, List.mem_range]

theorem mem_badOrder {track : Nat} : track ∈ badOrder dump zone ↔ track ∈ badTracks dump zone := by
  unfold badOrder
  split
  · exact Iff.rfl
  · exact List.mem_reverse

def good (dump : Dump) (zone : Nat) : List Nat := copied (order zone) (badOrder dump zone)

theorem length_good : (good dump zone).length + 0xC =
    tracks zone + (leftover (order zone) (badOrder dump zone)).length := by
  have hlength : (badOrder dump zone).length = 0xC := by
    unfold badOrder
    split
    · exact length_badTracks dump zone
    · rw [List.length_reverse, length_badTracks]
  have horder : (order zone).length = tracks zone := by
    unfold order
    split <;> simp
  rw [good, ← hlength, length_copied, horder]

theorem good_length_le_iff : (good dump zone).length + 0xC ≤ tracks zone ↔ GoodList dump zone := by
  rw [length_good, goodList_iff, ← leftover_eq_nil_iff, ← List.length_eq_zero_iff]
  omega

theorem good_length_le : (good dump zone).length ≤ tracks zone := by
  have horder : (order zone).length = tracks zone := by
    unfold order
    split <;> simp
  rw [← horder]
  exact copied_sublist.length_le

theorem good_ne_nil (h : 0xC < tracks zone) : good dump zone ≠ [] := by
  intro hnil
  have hlength := @length_good dump zone
  rw [hnil, List.length_nil] at hlength
  omega

end Lists

section Parts

def typesOf (type : Nat) : List Nat := diskTypeZones.getD type []
def revOf (type : Nat) : List Nat := revDiskTypeZones.getD type []
def startOf (type : Nat) : List Nat := startBlock.getD type []

def position (type zone : Nat) : Nat := (revOf type).getD zone 0

def partStart (type zone : Nat) : Nat := inStart (typesOf type) (position type zone)

def lastZone (type : Nat) : Nat := (typesOf type).getD 15 0

variable {type zone zone' : Nat}

theorem position_spec : ∀ type < 7, ∀ zone < 16, position type zone < 16 ∧
    (typesOf type).getD (position type zone) 0 = zone := by
  decide

theorem position_lastZone : ∀ type < 7, lastZone type < 16 ∧
    position type (lastZone type) = 15 := by
  decide

theorem tracks_spec : ∀ zone < 16, 0xC < tracks zone ∧ 0 < blockSize zone := by
  decide

theorem inStart_mono (types : List Nat) {a b : Nat} (h : a ≤ b) :
    inStart types a ≤ inStart types b := by
  induction h with
  | refl => exact le_rfl
  | step _ ih => exact ih.trans (Nat.le_add_right _ _)

theorem outStart_mono {a b : Nat} (h : a ≤ b) : outStart a ≤ outStart b := by
  induction h with
  | refl => exact le_rfl
  | step _ ih => exact ih.trans (Nat.le_add_right _ _)

theorem inStart_sixteen : ∀ type < 7, inStart (typesOf type) 16 = sdkFormatDumpSize := by
  decide +kernel

theorem outStart_sixteen : outStart 16 = mameFormatDumpSize := by
  decide +kernel

theorem partStart_all : ∀ type < 7, ∀ zone < 16, position type zone ≠ 15 →
    partStart type zone + tracks zone * trackSize zone ≤ sdkFormatDumpSize := by
  decide +kernel

end Parts

variable {move : BlockMove}

section Zones

variable {dump : Dump} {type zone : Nat}

def zoneMoves (dump : Dump) (type zone : Nat) : List BlockMove :=
  walk (blockSize zone) (placeOf zone) (order zone) (badOrder dump zone) (partStart type zone)
    ((startOf type).getD zone 0)

def allMoves (dump : Dump) : List BlockMove :=
  (List.range 16).flatMap (zoneMoves dump (diskType dump))

theorem convertToMame_of_lt (h : diskType dump < 7) :
    convertToMame dump = some (allMoves dump) := by
  have hrow (rows : List (List Nat)) (hrows : rows.length = 7) :
      rows[diskType dump]? = some (rows.getD (diskType dump) []) := by
    rw [List.getD_eq_getElem?_getD, List.getElem?_eq_getElem (by omega)]
    rfl
  have htypes := hrow diskTypeZones rfl
  have hrev := hrow revDiskTypeZones rfl
  have hstart := hrow startBlock rfl
  unfold convertToMame
  rw [htypes, hrev, hstart]
  have hzones : copyZone dump (typesOf (diskType dump)) (revOf (diskType dump))
      (startOf (diskType dump)) = zoneMoves dump (diskType dump) :=
    funext fun zone => copyZone_eq _ _ _
  exact congrArg (fun f => some ((List.range 16).flatMap f)) hzones

theorem convertToMame_of_ge (h : 7 ≤ diskType dump) : convertToMame dump = none := by
  have hrow : diskTypeZones[diskType dump]? = none := List.getElem?_eq_none h
  unfold convertToMame
  rw [hrow]
  rfl

theorem mem_allMoves :
    move ∈ allMoves dump ↔ ∃ zone < 16, move ∈ zoneMoves dump (diskType dump) zone := by
  simp [allMoves, List.mem_flatMap]

theorem placeOf_apart {t t' : Nat} (h : t ≠ t') :
    Apart (placeOf zone t) (blockSize zone + blockSize zone) (placeOf zone t')
      (blockSize zone + blockSize zone) := by
  rcases Nat.lt_or_gt_of_ne h with h | h
  · have hle : (t + 1) * trackSize zone ≤ t' * trackSize zone := Nat.mul_le_mul_right _ h
    rw [Nat.succ_mul, trackSize_eq] at hle
    refine .inl ?_
    unfold placeOf
    rw [trackSize_eq]
    omega
  · have hle : (t' + 1) * trackSize zone ≤ t * trackSize zone := Nat.mul_le_mul_right _ h
    rw [Nat.succ_mul, trackSize_eq] at hle
    refine .inr ?_
    unfold placeOf
    rw [trackSize_eq]
    omega

theorem zoneMoves_writes (h : move ∈ zoneMoves dump type zone) :
    outStart zone ≤ move.dest ∧ move.dest + move.size ≤ outStart (zone + 1) := by
  obtain ⟨hsize, track, htrack, hdest, -⟩ := mem_walk order_nodup h
  have hlt := mem_order.mp htrack
  have hle : (track + 1) * trackSize zone ≤ tracks zone * trackSize zone :=
    Nat.mul_le_mul_right _ hlt
  have hzone : zoneSize zone = tracks zone * trackSize zone := Nat.mul_comm _ _
  rw [Nat.succ_mul, trackSize_eq] at hle
  rw [outStart, hzone, trackSize_eq, hsize]
  rw [placeOf, trackSize_eq] at hdest
  omega

theorem zoneMoves_reads (htype : type < 7) (hzone : zone < 16) (hgood : GoodList dump zone)
    (h : move ∈ zoneMoves dump type zone) {s : Nat} (hs : move.source = some s) :
    partStart type zone ≤ s ∧
      s + move.size ≤ inStart (typesOf type) (position type zone + 1) := by
  obtain ⟨hlow, hhigh⟩ := walk_reads h s hs
  refine ⟨hlow, hhigh.trans ?_⟩
  have hcount := good_length_le_iff.mpr hgood
  have hle : (good dump zone).length * trackSize zone ≤ (tracks zone - 0xC) * trackSize zone :=
    Nat.mul_le_mul_right _ (by omega)
  rw [inStart, (position_spec type htype zone hzone).2, vZoneSize, Nat.mul_comm (trackSize zone)]
  rw [trackSize_eq] at hle ⊢
  exact Nat.add_le_add_left hle _

end Zones

/-- It reads and writes only inside the two images. -/
structure Inside (moves : List BlockMove) : Prop where
  reads : ∀ move ∈ moves, ∀ s, move.source = some s → s + move.size ≤ sdkFormatDumpSize
  writes : ∀ move ∈ moves, move.dest + move.size ≤ mameFormatDumpSize

/-- It permutes the blocks of the dump. -/
structure Permutes (dump : Dump) (moves : List BlockMove) : Prop extends Inside moves where
  /-- Each byte of the image is written. -/
  written : ∀ k < mameFormatDumpSize, ∃ move ∈ moves, move.dest ≤ k ∧ k < move.dest + move.size
  /-- None is written twice. -/
  once : moves.Pairwise BlockMove.WritesApart
  /-- No block of the dump is used twice. -/
  distinct : moves.Pairwise BlockMove.ReadsApart
  /-- Both blocks of a track come from the dump, or are zeros if the track is bad. -/
  blocks : ∀ zone < 16, ∀ track < tracks zone,
    ∀ dest ∈ [placeOf zone track, placeOf zone track + blockSize zone],
      ∃ source, ⟨source, dest, blockSize zone⟩ ∈ moves ∧
        (source = none ↔ track ∈ badTracks dump zone)
  /-- The image has the bytes that were moved. -/
  content : ∀ image, ∀ move ∈ moves, ∀ k < move.size, moved dump image moves (move.dest + k) =
    move.source.elim 0 fun source => dump (source + k)

/-- A dump with a disk type and lists of bad tracks as they should be. -/
structure Valid (dump : Dump) : Prop where
  type : diskType dump < 7
  lists : ∀ zone < 16, GoodList dump zone

/-- What is expected of the conversion of a dump. -/
structure Converts (dump : Dump) : Prop where
  valid : Valid dump → ∃ moves, convertToMame dump = some moves ∧ Permutes dump moves
  other : ¬ Valid dump → ∃ moves, convertToMame dump = some moves ∧ Inside moves

section Conversion

variable {dump : Dump}

theorem inside_iff (htype : diskType dump < 7) :
    Inside (allMoves dump) ↔ GoodList dump (lastZone (diskType dump)) := by
  obtain ⟨hlast, hposition⟩ := position_lastZone _ htype
  have hend : inStart (typesOf (diskType dump)) 16 = sdkFormatDumpSize := inStart_sixteen _ htype
  have hpart : partStart (diskType dump) (lastZone (diskType dump)) +
      trackSize (lastZone (diskType dump)) * (tracks (lastZone (diskType dump)) - 0xC) =
        sdkFormatDumpSize := by
    rw [← hend, partStart, hposition]
    rfl
  obtain ⟨htracks, hsize⟩ := tracks_spec _ hlast
  constructor
  · intro h
    obtain ⟨move, hmove, s, hs, hblock, hread⟩ := exists_walk_read _ (placeOf _)
      (partStart (diskType dump) (lastZone (diskType dump)))
      ((startOf (diskType dump)).getD (lastZone (diskType dump)) 0) (@good_ne_nil dump _ htracks)
    have hle := h.reads move (mem_allMoves.mpr ⟨_, hlast, hmove⟩) s hs
    rw [hblock, hread, ← hpart, ← trackSize_eq, Nat.mul_comm (trackSize _)] at hle
    have hcount := Nat.le_of_mul_le_mul_right (Nat.le_of_add_le_add_left hle)
      (show 0 < trackSize _ by rw [trackSize_eq]; omega)
    apply good_length_le_iff.mp
    unfold good
    omega
  · intro hgood
    refine ⟨?_, ?_⟩
    · intro move hmove s hs
      obtain ⟨zone, hzone, hmove⟩ := mem_allMoves.mp hmove
      by_cases hend' : position (diskType dump) zone = 15
      · have hsame : zone = lastZone (diskType dump) := by
          rw [← (position_spec _ htype zone hzone).2, hend']
          rfl
        subst hsame
        have hread := (zoneMoves_reads htype hlast hgood hmove hs).2
        rw [hposition, hend] at hread
        exact hread
      · have hread := (walk_reads hmove s hs).2
        have hall := partStart_all _ htype zone hzone hend'
        have hle : (good dump zone).length * trackSize zone ≤ tracks zone * trackSize zone :=
          Nat.mul_le_mul_right _ good_length_le
        rw [← trackSize_eq] at hread
        unfold good at hle
        omega
    · intro move hmove
      obtain ⟨zone, hzone, hmove⟩ := mem_allMoves.mp hmove
      have hwrite := (zoneMoves_writes hmove).2
      rw [← outStart_sixteen]
      exact hwrite.trans (outStart_mono hzone)

theorem parts_apart {type zone zone' : Nat} (htype : type < 7) (hzone : zone < 16)
    (hzone' : zone' < 16) (h : zone ≠ zone') :
    inStart (typesOf type) (position type zone + 1) ≤ partStart type zone' ∨
      inStart (typesOf type) (position type zone' + 1) ≤ partStart type zone := by
  have hne : position type zone ≠ position type zone' := by
    intro heq
    have hback := (position_spec type htype zone hzone).2
    rw [heq, (position_spec type htype zone' hzone').2] at hback
    exact h hback.symm
  rcases Nat.lt_or_gt_of_ne hne with hlt | hlt
  · exact .inl (inStart_mono _ hlt)
  · exact .inr (inStart_mono _ hlt)

theorem exists_zone {k : Nat} : ∀ count, k < outStart count →
    ∃ zone < count, outStart zone ≤ k ∧ k < outStart (zone + 1)
  | 0, h => absurd h (Nat.not_lt_zero k)
  | count + 1, h => by
    by_cases hbefore : k < outStart count
    · obtain ⟨zone, hzone, hrest⟩ := exists_zone count hbefore
      exact ⟨zone, Nat.lt_succ_of_lt hzone, hrest⟩
    · exact ⟨count, Nat.lt_succ_self _, Nat.le_of_not_lt hbefore, h⟩

theorem moved_of_not_written (image : Nat → UInt8) {moves : List BlockMove} {k : Nat}
    (h : ∀ move ∈ moves, ¬ (move.dest ≤ k ∧ k < move.dest + move.size)) :
    moved dump image moves k = image k := by
  unfold moved
  induction moves generalizing image with
  | nil => rfl
  | cons move moves ih =>
    rw [List.foldl_cons, ih _ fun m hm => h m (List.mem_cons_of_mem _ hm)]
    exact if_neg (h move List.mem_cons_self)

theorem moved_of_mem (image : Nat → UInt8) {moves : List BlockMove}
    (honce : moves.Pairwise BlockMove.WritesApart) (hmove : move ∈ moves) {k : Nat}
    (hk : k < move.size) : moved dump image moves (move.dest + k) =
      move.source.elim 0 fun source => dump (source + k) := by
  induction moves generalizing image with
  | nil => exact absurd hmove List.not_mem_nil
  | cons first moves ih =>
    obtain ⟨hfirst, honce⟩ := List.pairwise_cons.mp honce
    rcases List.mem_cons.mp hmove with rfl | hmove
    · have hkept : moved dump (move.run dump image) moves (move.dest + k) =
          move.run dump image (move.dest + k) := by
        apply moved_of_not_written
        intro other hother hcovers
        have hapart := hfirst other hother
        unfold BlockMove.WritesApart Apart at hapart
        omega
      refine hkept.trans ?_
      rw [BlockMove.run, if_pos ⟨Nat.le_add_right _ _, Nat.add_lt_add_left hk _⟩,
        Nat.add_sub_cancel_left]
    · exact ih (first.run dump image) honce hmove

theorem permutes_of_valid (h : Valid dump) : Permutes dump (allMoves dump) := by
  have honce : (allMoves dump).Pairwise BlockMove.WritesApart := by
    rw [allMoves, List.pairwise_flatMap]
    constructor
    · exact fun zone _ => walk_writesApart order_nodup fun _ _ _ _ hne => placeOf_apart hne
    · refine List.pairwise_lt_range.imp fun hlt => ?_
      intro move hmove other hother
      have hwrite := (zoneMoves_writes hmove).2
      have hwrite' := (zoneMoves_writes hother).1
      exact .inl (hwrite.trans ((outStart_mono hlt).trans hwrite'))
  refine ⟨(inside_iff h.type).mpr (h.lists _ (position_lastZone _ h.type).1), ?_, honce, ?_, ?_,
    fun image move hmove k hk => moved_of_mem image honce hmove hk⟩
  · intro k hk
    rw [← outStart_sixteen] at hk
    obtain ⟨zone, hzone, hlow, hhigh⟩ := exists_zone 16 hk
    have hsize : 0 < trackSize zone := by
      have hblock := (tracks_spec zone hzone).2
      rw [trackSize_eq]
      omega
    have hdiv := Nat.div_add_mod (k - outStart zone) (trackSize zone)
    have hmod := Nat.mod_lt (k - outStart zone) hsize
    have htrack : (k - outStart zone) / trackSize zone < tracks zone := by
      rw [Nat.div_lt_iff_lt_mul hsize, Nat.mul_comm]
      have hzoneSize : outStart (zone + 1) = outStart zone + trackSize zone * tracks zone := rfl
      omega
    have hplace : placeOf zone ((k - outStart zone) / trackSize zone) =
        outStart zone + trackSize zone * ((k - outStart zone) / trackSize zone) := by
      rw [placeOf, Nat.mul_comm]
    by_cases hfirst : (k - outStart zone) % trackSize zone < blockSize zone
    · obtain ⟨source, hmem⟩ := exists_mem_walk (mem_order.mpr htrack) (placeOf zone _)
        List.mem_cons_self
      refine ⟨_, mem_allMoves.mpr ⟨zone, hzone, hmem⟩, ?_, ?_⟩
      · simp only
        omega
      · simp only
        omega
    · obtain ⟨source, hmem⟩ := exists_mem_walk (mem_order.mpr htrack)
        (placeOf zone ((k - outStart zone) / trackSize zone) + blockSize zone)
        (List.mem_cons_of_mem _ List.mem_cons_self)
      have hsum : trackSize zone = blockSize zone + blockSize zone := trackSize_eq
      refine ⟨_, mem_allMoves.mpr ⟨zone, hzone, hmem⟩, ?_, ?_⟩
      · simp only
        omega
      · simp only
        omega
  · rw [allMoves, List.pairwise_flatMap]
    constructor
    · exact fun zone _ => walk_readsApart
    · refine List.Pairwise.imp_of_mem ?_ (List.pairwise_lt_range (n := 16))
      intro zone zone' hzone hzone' hlt move hmove other hother s hs s' hs'
      rw [List.mem_range] at hzone hzone'
      have hread := zoneMoves_reads h.type hzone (h.lists zone hzone) hmove hs
      have hread' := zoneMoves_reads h.type hzone' (h.lists zone' hzone') hother hs'
      rcases parts_apart h.type hzone hzone' hlt.ne with hparts | hparts
      · exact .inl (hread.2.trans (hparts.trans hread'.1))
      · exact .inr (hread'.2.trans (hparts.trans hread.1))
  · intro zone hzone track htrack dest hdest
    obtain ⟨source, hmem⟩ := exists_mem_walk (mem_order.mpr htrack) dest hdest
    refine ⟨source, mem_allMoves.mpr ⟨zone, hzone, hmem⟩, ?_⟩
    obtain ⟨-, track', htrack', hdest', hsource⟩ := mem_walk order_nodup hmem
    have hsame : track = track' := by
      by_contra hne
      have hapart := @placeOf_apart zone _ _ hne
      have hblock := (tracks_spec zone hzone).2
      have hpair := List.mem_pair.mp hdest
      unfold Apart at hapart
      simp only at hdest'
      omega
    subst hsame
    have hsub := goodList_iff.mp (h.lists zone hzone)
    exact hsource.trans ((not_mem_copied_iff order_nodup hsub htrack').trans mem_badOrder)

/-- A conversion is as expected exactly if the disk type has a row in the tables, and the zone that
is last in the dump has a list of bad tracks that is strictly increasing and within the zone. -/
theorem convertToMame_converts_iff (dump : Dump) : Converts dump ↔
    diskType dump < 7 ∧ GoodList dump (lastZone (diskType dump)) := by
  constructor
  · intro h
    have htype : diskType dump < 7 := by
      by_contra hge
      have hnone := convertToMame_of_ge (Nat.le_of_not_lt hge)
      obtain ⟨moves, hmoves, -⟩ := h.other fun hvalid => hge hvalid.type
      rw [hnone] at hmoves
      exact Option.some_ne_none moves hmoves.symm
    refine ⟨htype, ?_⟩
    by_cases hvalid : Valid dump
    · exact hvalid.lists _ (position_lastZone _ htype).1
    · obtain ⟨moves, hmoves, hinside⟩ := h.other hvalid
      rw [convertToMame_of_lt htype, Option.some.injEq] at hmoves
      subst hmoves
      exact (inside_iff htype).mp hinside
  · rintro ⟨htype, hlast⟩
    refine ⟨fun hvalid => ⟨_, convertToMame_of_lt htype, permutes_of_valid hvalid⟩, fun _ => ?_⟩
    exact ⟨_, convertToMame_of_lt htype, (inside_iff htype).mpr hlast⟩

/-- A dump of zeros is read beyond its end. -/
theorem zeros_not_converted : ¬ Converts fun _ => 0 := by
  intro h
  have hlist : ¬ GoodList (fun _ => 0) (lastZone (diskType fun _ => 0)) := by
    intro hgood
    have hincreasing := hgood.increasing
    exact absurd hincreasing (by decide)
  have hinvalid : ¬ Valid fun _ => 0 :=
    fun hvalid => hlist (hvalid.lists _ (by decide))
  obtain ⟨moves, hmoves, hinside⟩ := h.other hinvalid
  rw [convertToMame_of_lt (by decide), Option.some.injEq] at hmoves
  subst hmoves
  exact hlist ((inside_iff (by decide)).mp hinside)

end Conversion

end ParallelN64.Dd.Convert
