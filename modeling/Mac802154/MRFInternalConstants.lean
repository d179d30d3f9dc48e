import Mathlib.Data.List.Basic

namespace Mac802154

def mrf_register_receive_mac_control : UInt8 := 0x00
def mrf_register_pan_id_low_byte : UInt8 := 0x01
def mrf_register_short_address_low_byte : UInt8 := 0x03
def mrf_register_extended_address0 : UInt8 := 0x05
def mrf_register_power_amplifier_control2 : UInt8 := 0x18
def mrf_register_tx_normal_fifo_control : UInt8 := 0x1B
def mrf_register_software_reset : UInt8 := 0x2A
def mrf_register_tx_stabilization : UInt8 := 0x2E
def mrf_register_interrupt_status : UInt8 := 0x31
def mrf_register_interrupt_control : UInt8 := 0x32
def mrf_register_rf_mode_control : UInt8 := 0x36
def mrf_register_base_band1 : UInt8 := 0x39
def mrf_register_base_band2 : UInt8 := 0x3A
def mrf_register_base_band6 : UInt8 := 0x3E
def mrf_register_energy_detection_threshold_for_clear_channel_assessment : UInt8 := 0x3F

def mrf_register_rf_control0 : UInt16 := 0x200
def mrf_register_rf_control1 : UInt16 := 0x201
def mrf_register_rf_control2 : UInt16 := 0x202
def mrf_register_rf_control3 : UInt16 := 0x203
def mrf_register_rf_control6 : UInt16 := 0x206
def mrf_register_rf_control7 : UInt16 := 0x207
def mrf_register_rf_control8 : UInt16 := 0x208
def mrf_register_sleep_clock_control1 : UInt16 := 0x220

def mrf_fifo_enable : UInt8 := 0x08
def mrf_tx_normal_fifo_length : Nat := 0x80
def mrf_rx_fifo_start : UInt16 := 0x300
abbrev mrf_rx_fifo_length : Nat := 0x90

def mrf_value_full_software_reset : UInt8 := 0x07
def mrf_value_recommended_transmitter_on_time_before_beginning_a_packet : UInt8 := 0x18
def mrf_value_recommended_interframe_spacing : UInt8 := 0x95
def mrf_value_recommended_rf_optimize_control0 : UInt8 := 0x03
def mrf_value_recommended_rf_optimize_control1 : UInt8 := 0x01
def mrf_value_recommended_rf_control8 : UInt8 := 0x10
def mrf_value_phase_locked_loop_enabled : UInt8 := 0x80
def mrf_value_transmitter_power_0dB : UInt8 := 0
def mrf_value_enable_tx_filter : UInt8 := (0x01 : UInt8) <<< 7
def mrf_value_20MHz_clock_recovery_less_than_1ms : UInt8 := (0x01 : UInt8) <<< 4
def mrf_value_use_internal_100kHz_oscillator : UInt8 := 0x80
def mrf_value_disable_deprecated_clkout_sleep_clock_feature : UInt8 := (1 : UInt8) <<< 5
def mrf_value_minimum_sleep_clock_divisor_for_internal_oscillator : UInt8 := 1
def mrf_value_clear_channel_assessment_energy_detection_only : UInt8 := 0x80
def mrf_value_recommended_energy_detection_threshold : UInt8 := 0x60
def mrf_value_append_rssi_value_to_rxfifo : UInt8 := 0x40
def mrf_value_rf_state_machine_reset_state : UInt8 := 0x04
def mrf_value_rf_state_machine_operating_state : UInt8 := 0x00
def mrf_value_delay_interval_after_state_machine_reset : UInt8 := 200
def mrf_value_rx_decode_inversion : UInt8 := (1 : UInt8) <<< 2

def frame_length_field_size : UInt8 := 1
def frame_check_sequence_size : UInt8 := 2

end Mac802154
