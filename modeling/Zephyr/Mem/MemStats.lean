import Zephyr.Mem.MemoryLogger
import Zephyr.Text.Pattern
import Mathlib.Data.List.Forall2

/-! The statistics log and its reader, `parse_memory_statistics` of `mem_stats.py`. -/

namespace Zephyr

open Text

/-- A record of the reader. Addresses stay text. -/
structure StatsRecord where
  tm : Nat
  um : Nat
  fm : Nat
  allocated : Nat
  af : Nat
  arStart : List Char
  arEnd : List Char
  ds : Nat
  df : Nat
  drStart : List Char
  drEnd : List Char
  deriving DecidableEq

namespace MemStats

def pattern : List Piece :=
  [.literal "[MEM_STATS]: TM[".toList, .digits, .literal "]UM[".toList, .digits, .literal "]FM[".toList, .digits,
    .literal "]AS[".toList, .digits, .literal "]AF[".toList, .digits, .literal "]AR[start: ".toList, .shortest,
    .literal ", end: ".toList, .shortest, .literal "]DS[".toList, .digits, .literal "]DF[".toList, .digits,
    .literal "]DR[start: ".toList, .shortest, .literal ", end: ".toList, .shortest, .literal "]".toList]

def parseLine (line : List Char) : Option StatsRecord :=
  match matchPieces pattern line with
  | some [tm, um, fm, allocated, af, arStart, arEnd, ds, df, drStart, drEnd] =>
    some ⟨readDecimal tm, readDecimal um, readDecimal fm, readDecimal allocated, readDecimal af, arStart, arEnd,
      readDecimal ds, readDecimal df, drStart, drEnd⟩
  | _ => none

def parseMemoryStatistics (logLines : List (List Char)) : List StatsRecord := logLines.filterMap parseLine

end MemStats

inductive LogCall where
  | logAllocation (memRegion : LogRegion) (size : UInt64) (success : Bool)
  | logDeallocation (memRegion : LogRegion) (size : UInt64) (success : Bool)
  | logStats
  deriving DecidableEq

/-- A call, the logger behind it and the line it has printed. -/
structure LogEntry where
  call : LogCall
  logger : MemoryLogger
  line : List Char

namespace MemoryLogger

def call (self : MemoryLogger) : LogCall → MemoryLogger × List Char
  | .logAllocation memRegion size success => self.logAllocation memRegion size success
  | .logDeallocation memRegion size success => self.logDeallocation memRegion size success
  | .logStats => (self, self.logStats)

def log (self : MemoryLogger) : List LogCall → List LogEntry
  | [] => []
  | call :: calls => ⟨call, (self.call call).1, (self.call call).2⟩ :: (self.call call).1.log calls

end MemoryLogger

namespace StatsRecord

structure Counts (logger : MemoryLogger) (record : StatsRecord) : Prop where
  tm : record.tm = logger.totalMemory.toNat
  um : record.um = logger.usedMemory.toNat
  fm : record.fm = logger.freeMemory.toNat
  allocated : record.allocated = logger.allocationSuccesses.toNat
  af : record.af = logger.allocationFailures.toNat
  ds : record.ds = logger.deallocationSuccesses.toNat
  df : record.df = logger.deallocationFailures.toNat

def Range (region : LogRegion) (start stop : List Char) : Prop :=
  readAddress start = region.startAddress.toNat ∧ readAddress stop = region.endAddress.toNat

/-- The record gives back what the call has logged: the counters and the region it reports. -/
def Reads (logger : MemoryLogger) (record : StatsRecord) : LogCall → Prop
  | .logAllocation _ _ _ => Counts logger record ∧ Range logger.allocationRegion record.arStart record.arEnd
  | .logDeallocation _ _ _ => Counts logger record ∧ Range logger.deallocationRegion record.drStart record.drEnd
  | .logStats => Counts logger record ∧ Range logger.allocationRegion record.arStart record.arEnd ∧
      Range logger.deallocationRegion record.drStart record.drEnd

end StatsRecord

namespace MemStats

section Segments

variable {pieces : List Piece} {text rest : List Char} {groups : List (List Char)} {first : Char}

theorem match_decimal (word : UInt64) (starts : text.head?.map Char.isDigit = some false)
    (matched : matchPieces pieces rest = some groups) :
    matchPieces (.digits :: .literal text :: pieces) (decimal word ++ (text ++ rest)) = some (decimal word :: groups) :=
  matchPieces_digits (fun _ member => isDigit_of_mem_decimal member) (decimal_ne_nil word) starts matched

theorem match_address (word : UInt64) (starts : text.head? = some first) (other : first ∉ "0123456789ABCDEFx".toList)
    (matched : matchPieces pieces rest = some groups) :
    matchPieces (.shortest :: .literal text :: pieces) (address word ++ (text ++ rest)) =
      some (address word :: groups) := by
  refine matchPieces_shortest starts (fun char member => ⟨?_, ?_⟩) matched
  · rintro rfl
    exact absurd (mem_address member) (by decide)
  · rintro rfl
    exact other (mem_address member)

end Segments

theorem match_logStats (logger : MemoryLogger) : matchPieces pattern logger.logStats =
    some [decimal logger.totalMemory, decimal logger.usedMemory, decimal logger.freeMemory,
      decimal logger.allocationSuccesses, decimal logger.allocationFailures,
      address logger.allocationRegion.startAddress, address logger.allocationRegion.endAddress,
      decimal logger.deallocationSuccesses, decimal logger.deallocationFailures,
      address logger.deallocationRegion.startAddress, address logger.deallocationRegion.endAddress] := by
  have comma : (", end: ".toList).head? = some ',' := rfl
  have bracket : ("]DS[".toList).head? = some ']' := rfl
  have last : ("]".toList).head? = some ']' := rfl
  refine matchPieces_literal.trans ?_
  refine match_decimal _ rfl (match_decimal _ rfl (match_decimal _ rfl (match_decimal _ rfl (match_decimal _ rfl ?_))))
  refine match_address _ comma (by decide) (match_address _ bracket (by decide) ?_)
  refine match_decimal _ rfl (match_decimal _ rfl ?_)
  exact match_address _ comma (by decide) (match_address _ last (by decide) rfl)

/-! ### Lines that are not matched -/

/-- What opens a region, `AR[start: ` or `DR[start: `. -/
def opening (letter : Char) : List Char := letter :: 'R' :: "[start: ".toList

section Absent

variable {letter : Char} {body text rest : List Char}

theorem avoids_field (lacks : ∀ char ∈ body, char ≠ 'R') (starts : text.head?.map (· == 'R') = some false)
    (avoids : Avoids (opening letter) (text ++ rest)) : Avoids (opening letter) (body ++ (text ++ rest)) := by
  refine avoids.append ?_ lacks
  cases text with
  | nil => cases starts
  | cons first text => simpa using starts

theorem lacks_decimal (word : UInt64) : ∀ char ∈ decimal word, char ≠ 'R' := by
  rintro char member rfl
  exact absurd (isDigit_of_mem_decimal member) (by decide)

theorem lacks_address (word : UInt64) : ∀ char ∈ address word, char ≠ 'R' := by
  rintro char member rfl
  exact absurd (mem_address member) (by decide)

/-- Fixed text in front of a line that opens no region. -/
theorem avoids_literal (listed : letter ∈ ['A', 'D']) (clash : ['A', 'D'].all fun letter => clashes (opening letter) body)
    (avoids : Avoids (opening letter) rest) : Avoids (opening letter) (body ++ rest) :=
  avoids.literal (List.all_eq_true.mp clash letter listed)

theorem avoids_debug (listed : letter ∈ ['A', 'D']) (region : LogRegion) (avoids : Avoids (opening letter) rest) :
    Avoids (opening letter) (region.debug rest) := by
  refine avoids_literal listed (by decide) (avoids_field (lacks_decimal _) rfl ?_)
  refine avoids_literal listed (by decide) (avoids_field (lacks_decimal _) rfl ?_)
  exact avoids_literal listed (by decide) avoids

theorem avoids_debugMore (listed : letter ∈ ['A', 'D']) (regions : List LogRegion) (avoids : Avoids (opening letter) rest) :
    Avoids (opening letter) (LogRegion.debugMore rest regions) := by
  induction regions with
  | nil => exact avoids_literal listed (by decide) avoids
  | cons region regions ih => exact avoids_literal listed (by decide) (avoids_debug listed region ih)

theorem avoids_debugList (listed : letter ∈ ['A', 'D']) (regions : List LogRegion) (avoids : Avoids (opening letter) rest) :
    Avoids (opening letter) (LogRegion.debugList rest regions) := by
  cases regions with
  | nil => exact avoids_literal listed (by decide) avoids
  | cons region regions =>
    exact avoids_literal listed (by decide) (avoids_debug listed region (avoids_debugMore listed regions avoids))

/-- The end of a line, behind the closing bracket of `DR`. -/
theorem avoids_end (listed : letter ∈ ['A', 'D']) (logger : MemoryLogger) : Avoids (opening letter)
    ("PU[".toList ++ (decimal logger.peakMemoryUsage ++
      ("]MR[".toList ++ LogRegion.debugList "]\n".toList logger.memoryRegions))) := by
  have last : Avoids (opening letter) ("]\n".toList ++ []) := avoids_literal listed (by decide) trivial
  refine avoids_literal listed (by decide) (avoids_field (lacks_decimal _) rfl ?_)
  exact avoids_literal listed (by decide) (avoids_debugList listed _ last)

theorem avoids_start (listed : letter ∈ ['A', 'D']) (logger : MemoryLogger)
    (starts : text.head?.map (· == 'R') = some false) (avoids : Avoids (opening letter) (text ++ rest)) :
    Avoids (opening letter) ("[MEM_STATS]: TM[".toList ++ (decimal logger.totalMemory ++
      ("]UM[".toList ++ (decimal logger.usedMemory ++ ("]FM[".toList ++ (decimal logger.freeMemory ++
      ("]AS[".toList ++ (decimal logger.allocationSuccesses ++
      ("]AF[".toList ++ (decimal logger.allocationFailures ++ (text ++ rest))))))))))) := by
  refine avoids_literal listed (by decide) (avoids_field (lacks_decimal _) rfl ?_)
  refine avoids_literal listed (by decide) (avoids_field (lacks_decimal _) rfl ?_)
  refine avoids_literal listed (by decide) (avoids_field (lacks_decimal _) rfl ?_)
  refine avoids_literal listed (by decide) (avoids_field (lacks_decimal _) rfl ?_)
  exact avoids_literal listed (by decide) (avoids_field (lacks_decimal _) starts avoids)

theorem avoids_allocationLine (logger : MemoryLogger) :
    Avoids (opening 'D') (logger.line logger.allocationRegion.allocated ("]DR[".toList ++ ·)) := by
  have listed : 'D' ∈ ['A', 'D'] := by decide
  refine avoids_start listed logger rfl ?_
  refine Avoids.literal ?_ (by decide)
  refine avoids_field (lacks_address _) rfl (avoids_literal listed (by decide) ?_)
  refine avoids_field (lacks_address _) rfl (avoids_literal listed (by decide) ?_)
  refine avoids_field (lacks_decimal _) rfl (avoids_literal listed (by decide) ?_)
  exact avoids_field (lacks_decimal _) rfl ((avoids_end listed logger).literals (by decide))

theorem avoids_deallocationLine (logger : MemoryLogger) :
    Avoids (opening 'A') (logger.line ("]AR[".toList ++ ·) logger.deallocationRegion.deallocated) := by
  have listed : 'A' ∈ ['A', 'D'] := by decide
  refine avoids_start listed logger rfl ?_
  refine Avoids.literals ?_ (by decide)
  refine avoids_field (lacks_decimal _) rfl (avoids_literal listed (by decide) ?_)
  refine avoids_field (lacks_decimal _) rfl (Avoids.literal ?_ (by decide))
  refine avoids_field (lacks_address _) rfl (avoids_literal listed (by decide) ?_)
  exact avoids_field (lacks_address _) rfl (avoids_literal listed (by decide) (avoids_end listed logger))

end Absent

theorem parseLine_eq_none {line : List Char} {letter : Char} (avoids : Avoids (opening letter) line)
    (listed : Piece.literal (']' :: opening letter) ∈ pattern) : parseLine line = none := by
  have unmatched : matchPieces pattern line = none := by
    refine Option.eq_none_iff_forall_ne_some.mpr fun groups matched => ?_
    have inside : opening letter <:+: ']' :: opening letter := (List.suffix_cons _ _).isInfix
    exact avoids.not_infix (by simp [opening]) (inside.trans (infix_of_match matched listed))
  rw [parseLine, unmatched]

/-! ### The log -/

/-- The record of a line of `log_stats`. -/
def statsRecord (logger : MemoryLogger) : StatsRecord :=
  ⟨readDecimal (decimal logger.totalMemory), readDecimal (decimal logger.usedMemory),
    readDecimal (decimal logger.freeMemory), readDecimal (decimal logger.allocationSuccesses),
    readDecimal (decimal logger.allocationFailures), address logger.allocationRegion.startAddress,
    address logger.allocationRegion.endAddress, readDecimal (decimal logger.deallocationSuccesses),
    readDecimal (decimal logger.deallocationFailures), address logger.deallocationRegion.startAddress,
    address logger.deallocationRegion.endAddress⟩

theorem parseLine_logStats (logger : MemoryLogger) : parseLine logger.logStats = some (statsRecord logger) := by
  rw [parseLine, match_logStats]
  rfl

theorem reads_statsRecord (logger : MemoryLogger) : (statsRecord logger).Reads logger .logStats :=
  ⟨⟨readDecimal_decimal _, readDecimal_decimal _, readDecimal_decimal _, readDecimal_decimal _, readDecimal_decimal _,
    readDecimal_decimal _, readDecimal_decimal _⟩, ⟨readAddress_address _, readAddress_address _⟩,
    readAddress_address _, readAddress_address _⟩

theorem parseLine_call (logger : MemoryLogger) (call : LogCall) (other : call ≠ .logStats) :
    parseLine (logger.call call).2 = none := by
  cases call with
  | logAllocation memRegion size success =>
    exact parseLine_eq_none (avoids_allocationLine _) (by simp [pattern, opening])
  | logDeallocation memRegion size success =>
    exact parseLine_eq_none (avoids_deallocationLine _) (by simp [pattern, opening])
  | logStats => exact absurd rfl other

/-- One record for each call, in order, with what the call has logged. -/
def ReadsBack (entries : List LogEntry) : Prop :=
  List.Forall₂ (fun entry record => record.Reads entry.logger entry.call) entries
    (parseMemoryStatistics (entries.map LogEntry.line))

/-- A log is read back, call by call, exactly where every call is `log_stats`: the two other
calls leave the brackets of one region empty, which the reader does not match. -/
theorem readsBack_log_iff (logger : MemoryLogger) (calls : List LogCall) :
    ReadsBack (logger.log calls) ↔ ∀ call ∈ calls, call = .logStats := by
  induction calls generalizing logger with
  | nil => exact ⟨fun _ call member => absurd member List.not_mem_nil, fun _ => .nil⟩
  | cons call calls ih =>
    by_cases stats : call = .logStats
    · subst stats
      have parsed : parseMemoryStatistics ((logger.log (.logStats :: calls)).map LogEntry.line) =
          statsRecord logger :: parseMemoryStatistics ((logger.log calls).map LogEntry.line) :=
        List.filterMap_cons_some (parseLine_logStats logger)
      rw [ReadsBack, parsed, List.forall_mem_cons]
      constructor
      · rintro (_ | ⟨_, later⟩)
        exact ⟨rfl, (ih logger).mp later⟩
      · rintro ⟨_, later⟩
        exact .cons (reads_statsRecord logger) ((ih logger).mpr later)
    · have parsed : parseMemoryStatistics ((logger.log (call :: calls)).map LogEntry.line) =
          parseMemoryStatistics (((logger.call call).1.log calls).map LogEntry.line) :=
        List.filterMap_cons_none (parseLine_call logger call stats)
      rw [ReadsBack, parsed]
      refine ⟨fun records => ?_, fun every => absurd (every call List.mem_cons_self) stats⟩
      have equal := records.length_eq
      have fewer := List.length_filterMap_le parseLine (((logger.call call).1.log calls).map LogEntry.line)
      rw [List.length_map] at fewer
      exact absurd (equal ▸ fewer) (Nat.not_succ_le_self _)

/-- The line of one allocated frame yields no record. -/
theorem readsBack_allocation : ¬ ReadsBack (({ totalMemory := 0x100000, freeMemory := 0x100000 } : MemoryLogger).log
    [.logAllocation ⟨0x1000, 0x2000⟩ 0x1000 true]) := by
  intro records
  have nothing : parseMemoryStatistics ((({ totalMemory := 0x100000, freeMemory := 0x100000 } : MemoryLogger).log
      [.logAllocation ⟨0x1000, 0x2000⟩ 0x1000 true]).map LogEntry.line) = [] :=
    List.filterMap_cons_none (parseLine_call _ (.logAllocation ⟨0x1000, 0x2000⟩ 0x1000 true) (by decide))
  rw [ReadsBack, nothing] at records
  cases records

end MemStats

end Zephyr
