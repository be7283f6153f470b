import TmuxMemCpuLoad.StandardString
import TmuxMemCpuLoad.AcceptedOptions
import TmuxMemCpuLoad.ColourIndependence
import TmuxMemCpuLoad.StyleHygiene
import TmuxMemCpuLoad.CpuBackends
import TmuxMemCpuLoad.MemoryRange
import TmuxMemCpuLoad.MemoryBackends
import TmuxMemCpuLoad.MemorySizes
import TmuxMemCpuLoad.TickWrap
import TmuxMemCpuLoad.LoadFigures
import TmuxMemCpuLoad.CpuFormat
import TmuxMemCpuLoad.MeminfoDeterminism
import TmuxMemCpuLoad.PageClasses
import TmuxMemCpuLoad.MemoryUnits
import TmuxMemCpuLoad.StatGrammar
import TmuxMemCpuLoad.ColourBuffer
import TmuxMemCpuLoad.Configurations
import TmuxMemCpuLoad.SharedBuffer
import TmuxMemCpuLoad.ScreenReader
import TmuxMemCpuLoad.GraphScales
import TmuxMemCpuLoad.TableGenerator
import TmuxMemCpuLoad.LinuxRuns
import TmuxMemCpuLoad.BsdHosts
import TmuxMemCpuLoad.RoundedLinux
