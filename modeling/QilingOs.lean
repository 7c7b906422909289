import QilingOs.Ledger
import QilingOs.Guest
import QilingOs.Strings
import QilingOs.Printf
import QilingOs.Printf.Python
import QilingOs.Printf.Reference
import QilingOs.Printf.Ascii
import QilingOs.Printf.Refinement
import QilingOs.Stringify
import QilingOs.CallLog
import QilingOs.Guid
import QilingOs.Windows.Structs
import QilingOs.Windows.Request
import QilingOs.Windows.Reference
import QilingOs.Windows.IoWrite
import QilingOs.Windows.Ioctl
import QilingOs.Mcu
